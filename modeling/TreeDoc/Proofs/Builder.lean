/-
  What computations on a builder do to the stack of open sequences.

  * `Builder.extend`: nodes added at the end of the innermost sequence, a
    failure if there are nodes and no sequence;
  * `Produces build a`: `build` returns `a` from every stack, and leaves the
    stack as it is;
  * `Appends build ns`: `build` extends every stack by `ns`.

  The two relations are closed under the ways in which computations are put
  together. `Produces.group` joins them: what a body appends is what its group
  returns.
-/
import TreeDoc.Document.Builder

namespace TreeDoc.Document

/-- The nodes added at the end of the innermost sequence. Without an open
    sequence this fails, unless there is nothing to add. -/
def Builder.extend (ns : List Node) : Builder → Except Misuse Unit × Builder
  | ⟨top :: rest⟩ => (.ok (), ⟨(top ++ ns) :: rest⟩)
  | ⟨[]⟩ => (if ns.isEmpty then .ok () else .error .append, ⟨[]⟩)

theorem Builder.extend_nil (b : Builder) : b.extend [] = (.ok (), b) := by
  rcases b with ⟨_ | ⟨top, rest⟩⟩ <;> simp [extend]

namespace Build

variable {α β : Type}

/-! ## Runs -/

theorem run_bind (x : Build α) (f : α → Build β) (b : Builder) :
    (x >>= f).run b =
      match x.run b with
      | (.ok a, b') => (f a).run b'
      | (.error e, b') => (.error e, b') := by
  simp only [run, bind, ExceptT.bind, ExceptT.mk, ExceptT.run, StateT.bind, StateT.run, Id.run]
  rcases x b with ⟨_ | a, b'⟩ <;> rfl

theorem run_append (n : Node) (b : Builder) : (append n).run b = b.extend [n] := by
  rcases b with ⟨_ | ⟨top, rest⟩⟩ <;> rfl

/-! ## Computations that only return -/

/-- From every stack the computation returns `a`, and the stack is afterwards
    what it was before. -/
def Produces (build : Build α) (a : α) : Prop := ∀ b : Builder, build.run b = (.ok a, b)

theorem Produces.pure (a : α) : Produces (Pure.pure a) a := fun _ => rfl

theorem Produces.bind {x : Build α} {f : α → Build β} {a : α} {c : β} (hx : Produces x a)
    (hf : Produces (f a) c) : Produces (x >>= f) c := by
  intro b
  rw [run_bind, hx b]
  exact hf b

theorem Produces.map {x : Build α} {a : α} (f : α → β) (hx : Produces x a) :
    Produces (f <$> x) (f a) := by
  rw [map_eq_pure_bind]
  exact hx.bind (.pure (f a))

/-! ## Computations that append -/

/-- The computation extends every stack by `ns`. -/
def Appends (build : Build Unit) (ns : List Node) : Prop :=
  ∀ b : Builder, build.run b = b.extend ns

theorem Appends.nothing : Appends (Pure.pure ()) [] := fun b => (b.extend_nil).symm

theorem Appends.append (n : Node) : Appends (append n) [n] := run_append n

theorem Appends.appendOption : ∀ o : Option Node, Appends (appendOption o) o.toList
  | none => .nothing
  | some n => .append n

theorem Appends.seq {x y : Build Unit} {ns ms : List Node} (hx : Appends x ns)
    (hy : Appends y ms) : Appends (x >>= fun _ => y) (ns ++ ms) := by
  intro b
  rw [run_bind, hx b]
  rcases b with ⟨_ | ⟨top, rest⟩⟩
  · -- with nothing open, `y` is reached only if `x` had nothing to append
    rcases ns with _ | ⟨n, ns⟩
    · exact hy ⟨[]⟩
    · rfl
  · simp [Builder.extend, hy _]

theorem Appends.cons {y : Build Unit} {ms : List Node} (n : Node) (hy : Appends y ms) :
    Appends (Build.append n >>= fun _ => y) (n :: ms) := (Appends.append n).seq hy

/-- What is computed first only returns a value. -/
theorem Produces.appends {x : Build α} {f : α → Build Unit} {a : α} {ns : List Node}
    (hx : Produces x a) (hf : Appends (f a) ns) : Appends (x >>= f) ns := by
  intro b
  rw [run_bind, hx b]
  exact hf b

theorem Produces.appendOption {x : Build (Option Node)} {o : Option Node} (hx : Produces x o) :
    Appends (x >>= Build.appendOption) o.toList := hx.appends (.appendOption o)

theorem Appends.forM {f : α → Build Unit} {g : α → List Node} :
    ∀ {as : List α}, (∀ a ∈ as, Appends (f a) (g a)) → Appends (as.forM f) (as.flatMap g)
  | [], _ => .nothing
  | a :: as, h => by
    show Appends (f a >>= fun _ => as.forM f) (g a ++ as.flatMap g)
    exact (h a (by simp)).seq (Appends.forM fun c hc => h c (by simp [hc]))

theorem Appends.forM_map {f : α → Build Unit} {g : α → Node} {as : List α}
    (h : ∀ a, Appends (f a) [g a]) : Appends (as.forM f) (as.map g) := by
  rw [List.map_eq_flatMap]
  exact .forM fun a _ => h a

theorem Appends.forM_nothing {f : α → Build Unit} {as : List α} (h : ∀ a, Appends (f a) []) :
    Appends (as.forM f) [] := by
  have hnil : (as.flatMap fun _ => []) = ([] : List Node) :=
    List.flatMap_eq_nil_iff.2 fun _ _ => rfl
  rw [← hnil]
  exact .forM fun a _ => h a

/-- **A group returns what its body appends**, and leaves no trace of it on the
    stack. -/
theorem Produces.group {body : Build Unit} {ns : List Node} (h : Appends body ns) :
    Produces (group body) ns := by
  intro b
  have hbody : body.run ⟨[] :: b.stack⟩ = (.ok (), ⟨ns :: b.stack⟩) := by
    rw [h]; simp [Builder.extend]
  have hstart : start.run b = (.ok (), ⟨[] :: b.stack⟩) := rfl
  have hclose : close.run ⟨ns :: b.stack⟩ = (.ok ns, b) := rfl
  rw [Build.group, run_bind, hstart]
  simp only
  rw [run_bind, hbody]
  simp only
  exact hclose

end Build

end TreeDoc.Document
