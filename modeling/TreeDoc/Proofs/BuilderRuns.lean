/-
  Runs of steps on a builder.

  A builder may be used in any order: sequences are opened and closed, and nodes appended,
  and a step that fails is passed over. Whatever is done, a builder is a stack of sequences.

  * `Step`, `Builder.after`, `outcomes`: the steps of a run, the builder after them, and
    what becomes of each;
  * `Step.Takes`: the rules of a single step, with `takes` for every step of a run;
  * `after_depth`: the open sequences are those that were opened and not closed;
  * `balanced`, `appended`: runs that close what they open and nothing else, and what they
    append outside of that;
  * `run_balanced`: such a run extends the innermost sequence, whatever is open around it;
  * `builder_faithful`: the four statements together.
-/
import TreeDoc.Document.Builder

namespace TreeDoc.Document

open Build (run)

/-! ## Steps -/

namespace Builder

/-- What may be done with a builder. -/
inductive Step where
  | start
  | append (n : Node)
  | appendOption (o : Option Node)
  | close

/-- What becomes of a step: a failure, or the sequence that is handed back, if any. -/
abbrev Outcome := Except Misuse (Option (List Node))

namespace Step

/-- The computation of a step. -/
def build : Step → Build (Option (List Node))
  | start => do
    Build.start
    return none
  | append n => do
    Build.append n
    return none
  | appendOption o => do
    Build.appendOption o
    return none
  | close => some <$> Build.close

/-- The failure of a step that needs an open sequence. -/
def misuse? : Step → Option Misuse
  | start | appendOption none => none
  | append _ | appendOption (some _) => some .append
  | close => some .close

/-- The step opens a sequence. -/
def isStart : Step → Bool
  | start => true
  | _ => false

/-- The step closes a sequence. -/
def isClose : Step → Bool
  | close => true
  | _ => false

/-- **The rules of a step**: what becomes of it on a builder, and the builder after it. -/
inductive Takes : Step → Builder → Outcome → Builder → Prop
  | start (b : Builder) : Takes .start b (.ok none) ⟨[] :: b.stack⟩
  | append (n : Node) (top : List Node) (rest : List (List Node)) :
      Takes (.append n) ⟨top :: rest⟩ (.ok none) ⟨(top ++ [n]) :: rest⟩
  | appendSome (n : Node) (top : List Node) (rest : List (List Node)) :
      Takes (.appendOption (some n)) ⟨top :: rest⟩ (.ok none) ⟨(top ++ [n]) :: rest⟩
  | appendNone (b : Builder) : Takes (.appendOption none) b (.ok none) b
  | close (top : List Node) (rest : List (List Node)) :
      Takes .close ⟨top :: rest⟩ (.ok (some top)) ⟨rest⟩
  | misuse {s : Step} {m : Misuse} : s.misuse? = some m → Takes s ⟨[]⟩ (.error m) ⟨[]⟩

theorem takes (s : Step) (b : Builder) : Takes s b (run s.build b).1 (run s.build b).2 := by
  rcases b with ⟨_ | ⟨top, rest⟩⟩
  · cases s with
    | start => exact .start _
    | append n => exact .misuse rfl
    | appendOption o =>
      cases o with
      | none => exact .appendNone _
      | some n => exact .misuse rfl
    | close => exact .misuse rfl
  · cases s with
    | start => exact .start _
    | append n => exact .append n top rest
    | appendOption o =>
      cases o with
      | none => exact .appendNone _
      | some n => exact .appendSome n top rest
    | close => exact .close top rest

section
variable {s : Step} {b b' : Builder} {o : Outcome} {m : Misuse}

/-- A step fails if it needs an open sequence and there is none. -/
theorem Takes.error_iff (h : Takes s b o b') :
    o = .error m ↔ b.depth = 0 ∧ s.misuse? = some m := by
  cases h with
  | start | appendNone => simp [misuse?]
  | append | appendSome | close => simp [Builder.depth]
  | misuse hm => simp [Builder.depth, hm]

theorem Takes.unchanged (h : Takes s b (.error m) b') : b' = b := by
  cases h
  rfl

theorem Takes.depth (h : Takes s b o b') :
    b'.depth + (if s.isClose && o.isOk then 1 else 0) = b.depth + (if s.isStart then 1 else 0) := by
  cases h with
  | start | append | appendSome | appendNone | close =>
    simp [Builder.depth, isClose, isStart, Except.isOk, Except.toBool]
  | misuse hm =>
    cases s with
    | start => simp [misuse?] at hm
    | append | appendOption | close => simp [isStart, Except.isOk, Except.toBool]

end

end Step

/-! ## Runs -/

/-- The builder after a run. -/
def after (b : Builder) (steps : List Step) : Builder :=
  steps.foldl (fun b s => (run s.build b).2) b

/-- What becomes of the steps of a run. -/
def outcomes : List Step → Builder → List Outcome
  | [], _ => []
  | s :: steps, b => (run s.build b).1 :: outcomes steps (run s.build b).2

/-- How many steps of a run open a sequence. -/
def openings (steps : List Step) : Nat := steps.countP Step.isStart

/-- How many steps of a run close a sequence, and do not fail. -/
def closings (steps : List Step) (b : Builder) : Nat :=
  (steps.zip (outcomes steps b)).countP fun x => x.1.isClose && x.2.isOk

theorem after_cons (b : Builder) (s : Step) (steps : List Step) :
    b.after (s :: steps) = (run s.build b).2.after steps := rfl

theorem after_append (b : Builder) (steps more : List Step) :
    b.after (steps ++ more) = (b.after steps).after more := List.foldl_append

theorem outcomes_length (steps : List Step) (b : Builder) :
    (outcomes steps b).length = steps.length := by
  induction steps generalizing b with
  | nil => rfl
  | cons s steps ih => rw [outcomes, List.length_cons, ih, List.length_cons]

theorem outcomes_append (steps more : List Step) (b : Builder) :
    outcomes (steps ++ more) b = outcomes steps b ++ outcomes more (b.after steps) := by
  induction steps generalizing b with
  | nil => rfl
  | cons s steps ih => rw [List.cons_append, outcomes, outcomes, ih, List.cons_append, after_cons]

/-- What becomes of a step depends on the builder that the steps before it leave. -/
theorem outcomes_at (before rest : List Step) (s : Step) (b : Builder) :
    (outcomes (before ++ s :: rest) b)[before.length]? = some (run s.build (b.after before)).1 := by
  rw [outcomes_append, outcomes, ← outcomes_length before b,
    List.getElem?_append_right (Nat.le_refl _), Nat.sub_self, List.getElem?_cons_zero]

theorem after_depth (steps : List Step) (b : Builder) :
    (b.after steps).depth + closings steps b = b.depth + openings steps := by
  induction steps generalizing b with
  | nil => rfl
  | cons s steps ih =>
    have hstep := (s.takes b).depth
    have hrest := ih (run s.build b).2
    simp only [closings, openings, outcomes, List.zip_cons_cons, List.countP_cons, after_cons]
      at hrest ⊢
    omega

/-! ## Balanced runs -/

/-- With a number of sequences of its own still open, a run closes these and the ones that
    it opens, and nothing else. -/
def balanced : Nat → List Step → Bool
  | level, [] => level = 0
  | level, .start :: steps => balanced (level + 1) steps
  | level, .append _ :: steps => balanced level steps
  | level, .appendOption _ :: steps => balanced level steps
  | 0, .close :: _ => false
  | level + 1, .close :: steps => balanced level steps

/-- What a run appends while no sequence of its own is open, in order. -/
def appended : Nat → List Step → List Node
  | _, [] => []
  | level, .start :: steps => appended (level + 1) steps
  | level, .append n :: steps => (if level = 0 then [n] else []) ++ appended level steps
  | level, .appendOption o :: steps => (if level = 0 then o.toList else []) ++ appended level steps
  | level, .close :: steps => appended (level - 1) steps

/-- No step of the run fails, and it takes one builder to the other. -/
def Succeeds (steps : List Step) (b b' : Builder) : Prop :=
  b.after steps = b' ∧ ∀ o ∈ outcomes steps b, ∃ r, o = .ok r

section
variable {s : Step} {steps more : List Step} {b b' b'' : Builder} {r : Option (List Node)}

theorem Succeeds.nil (b : Builder) : Succeeds [] b b :=
  ⟨rfl, fun _ ho => absurd ho List.not_mem_nil⟩

theorem Succeeds.cons (hs : run s.build b = (.ok r, b')) (h : Succeeds steps b' b'') :
    Succeeds (s :: steps) b b'' := by
  obtain ⟨hafter, houtcomes⟩ := h
  refine ⟨?_, ?_⟩
  · rw [after_cons, hs, hafter]
  · intro o ho
    rw [outcomes, hs] at ho
    rcases List.mem_cons.1 ho with rfl | ho
    · exact ⟨r, rfl⟩
    · exact houtcomes o ho

end

theorem run_appendOption (o : Option Node) (top : List Node) (rest : List (List Node)) :
    run (Step.appendOption o).build ⟨top :: rest⟩ = (.ok none, ⟨(top ++ o.toList) :: rest⟩) := by
  cases o with
  | none =>
    rw [Option.toList_none, List.append_nil]
    rfl
  | some n => rfl

/-- A step that appends does so to the first of the sequences that the run has open, or to
    the one under them if there are none. -/
theorem Succeeds.appending {s : Step} {steps : List Step} {ms ns : List Node}
    (hs : ∀ top rest, run s.build ⟨top :: rest⟩ = (.ok none, ⟨(top ++ ns) :: rest⟩))
    (inner : List (List Node)) (top : List Node) (rest : List (List Node))
    (h : ∀ (inner' : List (List Node)) (top' : List Node), inner'.length = inner.length →
      Succeeds steps ⟨inner' ++ top' :: rest⟩ ⟨(top' ++ ms) :: rest⟩) :
    Succeeds (s :: steps) ⟨inner ++ top :: rest⟩
      ⟨(top ++ ((if inner.length = 0 then ns else []) ++ ms)) :: rest⟩ := by
  cases inner with
  | nil =>
    rw [if_pos List.length_nil, ← List.append_assoc]
    exact .cons (hs top rest) (h [] (top ++ ns) rfl)
  | cons seq inner =>
    rw [List.length_cons, if_neg (Nat.succ_ne_zero _), List.nil_append]
    exact .cons (hs seq _) (h ((seq ++ ns) :: inner) top rfl)

/-- **A balanced run extends the innermost sequence**, under the sequences of its own that
    are open at first. -/
theorem run_balanced : ∀ (steps : List Step) (inner : List (List Node)) (top : List Node)
    (rest : List (List Node)), balanced inner.length steps = true →
    Succeeds steps ⟨inner ++ top :: rest⟩ ⟨(top ++ appended inner.length steps) :: rest⟩
  | [], inner, top, rest, h => by
    obtain rfl : inner = [] := List.length_eq_zero_iff.1 (of_decide_eq_true h)
    rw [appended, List.append_nil]
    exact .nil _
  | .start :: steps, inner, top, rest, h => .cons rfl (run_balanced steps ([] :: inner) top rest h)
  | .append n :: steps, inner, top, rest, h => by
    rw [appended]
    refine .appending (fun _ _ => rfl) inner top rest fun inner' top' hlength => ?_
    rw [balanced, ← hlength] at h
    rw [← hlength]
    exact run_balanced steps inner' top' rest h
  | .appendOption o :: steps, inner, top, rest, h => by
    rw [appended]
    refine .appending (run_appendOption o) inner top rest fun inner' top' hlength => ?_
    rw [balanced, ← hlength] at h
    rw [← hlength]
    exact run_balanced steps inner' top' rest h
  | .close :: steps, [], top, rest, h => by
    rw [List.length_nil, balanced] at h
    cases h
  | .close :: steps, seq :: inner, top, rest, h => .cons rfl (run_balanced steps inner top rest h)

/-- **A builder is a faithful stack of sequences.** In every run from every builder, a step
    fails if it needs an open sequence and at that moment there is none, and a failing step
    leaves the builder as it is. The open sequences are those at the start and those opened,
    less the ones closed. And between an opening and a closing step, a balanced run does not
    fail; the closing step hands back what the run appends outside of the sequences that it
    opens itself, and leaves the builder as it was. -/
theorem builder_faithful (b : Builder) :
    (∀ (before rest : List Step) (s : Step) (m : Misuse),
      (outcomes (before ++ s :: rest) b)[before.length]? = some (.error m) ↔
        (b.after before).depth = 0 ∧ s.misuse? = some m) ∧
    (∀ (before rest : List Step) (s : Step) (m : Misuse),
      (outcomes (before ++ s :: rest) b)[before.length]? = some (.error m) →
        b.after (before ++ [s]) = b.after before) ∧
    (∀ steps : List Step,
      (b.after steps).depth + closings steps b = b.depth + openings steps) ∧
    ∀ steps : List Step, balanced 0 steps = true →
      b.after (.start :: steps ++ [.close]) = b ∧
      ∃ os : List Outcome, (∀ o ∈ os, ∃ r, o = .ok r) ∧
        outcomes (.start :: steps ++ [.close]) b = os ++ [.ok (some (appended 0 steps))] := by
  refine ⟨fun before rest s m => ?_, fun before rest s m h => ?_, fun steps => after_depth steps b,
    fun steps h => ?_⟩
  · rw [outcomes_at, Option.some.injEq]
    exact (s.takes (b.after before)).error_iff
  · rw [outcomes_at, Option.some.injEq] at h
    have htakes := s.takes (b.after before)
    rw [h] at htakes
    rw [after_append]
    exact htakes.unchanged
  · have hrun : Succeeds steps ⟨[] :: b.stack⟩ ⟨appended 0 steps :: b.stack⟩ :=
      run_balanced steps [] [] b.stack h
    obtain ⟨hafter, houtcomes⟩ := Succeeds.cons (s := .start) (b := b) rfl hrun
    refine ⟨?_, _, houtcomes, ?_⟩
    · rw [after_append, hafter]
      rfl
    · rw [outcomes_append, hafter]
      rfl

/-- A run with a sequence of its own, between an opening and a closing step. -/
def bracketedRun : List Step :=
  [.append (.ofKind .comment), .start, .append (.ofKind .reply), .close, .appendOption none,
    .appendOption (some (.ofKind .returning))]

/-- The comment and the return are handed back, but not the reply, and the sequence that is
    open around the run stays as it is. Where none is open, one more closing step fails. -/
theorem bracketedRun_faithful :
    balanced 0 bracketedRun = true ∧
    (Builder.after ⟨[[.ofKind .unary]]⟩ (.start :: bracketedRun ++ [.close]) =
        ⟨[[.ofKind .unary]]⟩ ∧
      ∃ os : List Outcome, outcomes (.start :: bracketedRun ++ [.close]) ⟨[[.ofKind .unary]]⟩ =
        os ++ [.ok (some [.ofKind .comment, .ofKind .returning])]) ∧
    (outcomes (.start :: bracketedRun ++ [.close, .close]) {})[8]? = some (.error .close) ∧
    Builder.after {} (.start :: bracketedRun ++ [.close, .close]) = {} := by
  have hbalanced : balanced 0 bracketedRun = true := by decide
  have hnested := (builder_faithful ⟨[[.ofKind .unary]]⟩).2.2.2 bracketedRun hbalanced
  obtain ⟨hnestedAfter, os, -, hnestedOutcomes⟩ := hnested
  obtain ⟨hfails, hunchanged, -, hbracketed⟩ := builder_faithful {}
  obtain ⟨hafter, -⟩ := hbracketed bracketedRun hbalanced
  have hmisuse : (outcomes (.start :: bracketedRun ++ [.close] ++ .close :: []) {})[8]? =
      some (.error .close) := (hfails _ [] .close .close).2 ⟨by rw [hafter]; rfl, rfl⟩
  refine ⟨hbalanced, ⟨hnestedAfter, os, hnestedOutcomes⟩, hmisuse, ?_⟩
  exact (hunchanged (.start :: bracketedRun ++ [.close]) [] .close .close hmisuse).trans hafter

end Builder

end TreeDoc.Document
