/-
  What is left behind when documents are saved.

  * `Request.line`: what is reported about one input;
  * `Request.save_success`, `Request.save_refused`: what it means that a document is
    saved, and that it is not;
  * `Request.saveAll_append`: results are saved one after the other;
  * `Request.saveAll_split`: all of them are saved, or all up to the first document
    that cannot be;
  * `Request.saveAll_stderr`, `Request.saveAll_printed`: the reports, and the output
    where documents are printed.
-/
import Mathlib.Data.List.Basic
import TreeDoc.Command.Convert

namespace TreeDoc.Command.Request

open Files (FileSystem)

/-! ## One result -/

/-- The line about an input that has no document. -/
def failedLine (e : LoadError) : String := "failed: " ++ e.message ++ "\n"

/-- The line about a document that has been written, if one is wanted. -/
def savedLine (r : Request) (path : String) : String :=
  match r.outDir with
  | some dir =>
    if r.verbose then "wrote " ++ path ++ " → " ++ Files.Path.join dir (targetName path) ++ "\n"
    else ""
  | none => ""

/-- The line about one input. -/
def line (r : Request) : String × Except LoadError String → String
  | (path, .ok _) => r.savedLine path
  | (_, .error e) => failedLine e

variable {r : Request} {o : Outcome} {path text : String}

theorem save_printed (hdir : r.outDir = none) :
    r.save o path text = { o with stdout := o.stdout ++ text ++ "\n" } := by
  simp only [save, hdir]

/-- **A document that is saved** is printed, or the folder is made and the file is
    written. -/
theorem save_success (h : (r.save o path text).failure = none) :
    (r.outDir = none ∧ r.save o path text = { o with stdout := o.stdout ++ text ++ "\n" }) ∨
    ∃ dir made system, r.outDir = some dir ∧ o.system.makeFolders dir = .ok made ∧
      made.write (Files.Path.join dir (targetName path)) text = .ok system ∧
      r.save o path text = { o with system, stderr := o.stderr ++ r.savedLine path } := by
  cases hdir : r.outDir with
  | none => exact .inl ⟨rfl, save_printed hdir⟩
  | some dir =>
    right
    simp only [save, hdir] at h ⊢
    cases hmade : o.system.makeFolders dir with
    | error e => simp [hmade] at h
    | ok made =>
      simp only [hmade] at h ⊢
      cases hsystem : made.write (Files.Path.join dir (targetName path)) text with
      | error e => simp [hsystem] at h
      | ok system => exact ⟨dir, made, system, rfl, hmade, hsystem, by simp only [savedLine, hdir]⟩

/-- **A document that is not saved** leaves no line. -/
theorem save_refused (ho : o.failure = none) (h : (r.save o path text).failure ≠ none) :
    (r.save o path text).stderr = o.stderr := by
  cases hdir : r.outDir with
  | none => exact absurd (by rw [save_printed hdir]; exact ho) h
  | some dir =>
    simp only [save, hdir] at h ⊢
    cases hmade : o.system.makeFolders dir with
    | error e => rfl
    | ok made =>
      simp only [hmade] at h ⊢
      cases hsystem : made.write (Files.Path.join dir (targetName path)) text with
      | error e => rfl
      | ok system => exact absurd (by simpa [hsystem] using ho) h

theorem save_success_stderr (h : (r.save o path text).failure = none) :
    (r.save o path text).stderr = o.stderr ++ r.savedLine path := by
  rcases save_success h with ⟨hdir, hsave⟩ | ⟨dir, made, system, hdir, -, -, hsave⟩
  · rw [hsave]
    simp [savedLine, hdir]
  · rw [hsave]

/-! ## All results -/

theorem saveAll_ok (h : (r.save o path text).failure = none)
    (rest : List (String × Except LoadError String)) :
    r.saveAll o ((path, .ok text) :: rest) = r.saveAll (r.save o path text) rest := by
  simp [saveAll, h]

theorem saveAll_refused (h : (r.save o path text).failure ≠ none)
    (rest : List (String × Except LoadError String)) :
    r.saveAll o ((path, .ok text) :: rest) = r.save o path text := by
  simp [saveAll, Option.isSome_iff_ne_none.2 h]

theorem saveAll_error (e : LoadError) (rest : List (String × Except LoadError String)) :
    r.saveAll o ((path, .error e) :: rest) =
      r.saveAll { o with stderr := o.stderr ++ failedLine e } rest := by
  simp [saveAll, failedLine, String.append_assoc]

/-- **One step.** There is one line about the first result and the others follow, or
    its document cannot be saved and nothing follows. -/
theorem saveAll_cons (ho : o.failure = none) (x : String × Except LoadError String) :
    (∃ o', o'.failure = none ∧ o'.stderr = o.stderr ++ r.line x ∧
      ∀ rest, r.saveAll o (x :: rest) = r.saveAll o' rest) ∨
    ∃ path text, x = (path, .ok text) ∧ (r.save o path text).failure ≠ none ∧
      ∀ rest, r.saveAll o (x :: rest) = r.save o path text := by
  obtain ⟨path, result⟩ := x
  cases result with
  | error e =>
    exact .inl ⟨{ o with stderr := o.stderr ++ failedLine e }, ho, rfl, saveAll_error e⟩
  | ok text =>
    by_cases hsave : (r.save o path text).failure = none
    · exact .inl ⟨_, hsave, save_success_stderr hsave, saveAll_ok hsave⟩
    · exact .inr ⟨path, text, rfl, hsave, saveAll_refused hsave⟩

/-- Results that are all saved may be followed by others. -/
theorem saveAll_append (ho : o.failure = none) {as : List (String × Except LoadError String)}
    (h : (r.saveAll o as).failure = none) (bs : List (String × Except LoadError String)) :
    r.saveAll o (as ++ bs) = r.saveAll (r.saveAll o as) bs := by
  induction as generalizing o with
  | nil => rfl
  | cons a as ih =>
    rcases saveAll_cons ho a with ⟨o', ho', -, hnext⟩ | ⟨path, text, -, hsave, hstop⟩
    · rw [hnext] at h
      rw [List.cons_append, hnext, hnext, ih ho' h]
    · rw [hstop] at h
      exact absurd h hsave

theorem saveAll_of_append (ho : o.failure = none) {as bs : List (String × Except LoadError String)}
    (h : (r.saveAll o (as ++ bs)).failure = none) : (r.saveAll o as).failure = none := by
  induction as generalizing o with
  | nil => exact ho
  | cons a as ih =>
    rcases saveAll_cons ho a with ⟨o', ho', -, hnext⟩ | ⟨path, text, -, hsave, hstop⟩
    · rw [List.cons_append, hnext] at h
      rw [hnext]
      exact ih ho' h
    · rw [List.cons_append, hstop] at h
      exact absurd h hsave

/-- **Saving stops** at the first document that cannot be saved, if there is one. -/
theorem saveAll_split (ho : o.failure = none) (results : List (String × Except LoadError String)) :
    (r.saveAll o results).failure = none ∨
    ∃ told path text later, results = told ++ (path, .ok text) :: later ∧
      (r.saveAll o told).failure = none ∧
      (r.save (r.saveAll o told) path text).failure ≠ none ∧
      r.saveAll o results = r.save (r.saveAll o told) path text := by
  induction results generalizing o with
  | nil => exact .inl ho
  | cons x results ih =>
    rcases saveAll_cons ho x with ⟨o', ho', -, hnext⟩ | ⟨path, text, rfl, hsave, hstop⟩
    · rcases ih ho' with hall | ⟨told, path, text, later, rfl, htold, hpath, heq⟩
      · exact .inl (by rwa [hnext])
      · refine .inr ⟨x :: told, path, text, later, rfl, ?_, ?_, ?_⟩
        · rwa [hnext]
        · rwa [hnext]
        · rw [hnext, hnext, heq]
    · exact .inr ⟨[], path, text, results, rfl, ho, hsave, hstop results⟩

/-- Where everything is saved there is one line about each input. -/
theorem saveAll_stderr (ho : o.failure = none) {results : List (String × Except LoadError String)}
    (h : (r.saveAll o results).failure = none) :
    (r.saveAll o results).stderr = o.stderr ++ String.join (results.map r.line) := by
  induction results generalizing o with
  | nil => simp [saveAll]
  | cons x results ih =>
    rcases saveAll_cons ho x with ⟨o', ho', hline, hnext⟩ | ⟨path, text, -, hsave, hstop⟩
    · rw [hnext] at h ⊢
      rw [ih ho' h, hline, List.map_cons, String.join_cons, String.append_assoc]
    · rw [hstop] at h
      exact absurd h hsave

/-- **Printed documents.** Without a folder to write to, every document is printed and
    every failure is reported, in order, and nothing else is done. -/
theorem saveAll_printed (hdir : r.outDir = none) (ho : o.failure = none)
    (results : List (String × Except LoadError String)) :
    r.saveAll o results = { o with
      stdout := o.stdout ++
        String.join ((results.filterMap fun x => x.2.toOption).map (· ++ "\n")),
      stderr := o.stderr ++ String.join (results.map r.line) } := by
  induction results generalizing o with
  | nil => simp [saveAll]
  | cons x results ih =>
    obtain ⟨path, result⟩ := x
    cases result with
    | error e =>
      have ho' : ({ o with stderr := o.stderr ++ failedLine e } : Outcome).failure = none := ho
      rw [saveAll_error, ih ho']
      simp [line, Except.toOption, String.append_assoc]
    | ok text =>
      have hsave : (r.save o path text).failure = none := by rw [save_printed hdir]; exact ho
      have hline : r.line (path, .ok text) = "" := by simp [line, savedLine, hdir]
      rw [saveAll_ok hsave, ih hsave, save_printed hdir]
      simp [hline, Except.toOption, String.append_assoc]

end TreeDoc.Command.Request
