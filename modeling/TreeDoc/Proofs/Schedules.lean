/-
  Runs in any order.

  The inputs of a run are read and converted in parallel. An input is read at one
  moment and converted at a later one, and between the two anything may happen to the
  others. The documents are saved when the last input is converted, one after the
  other in the order of the inputs.

  * `Stage`, `Step`: how far a run has come, and what may happen next;
  * `Runs`: a run ends with an outcome;
  * `step_wellFounded`, `exists_ended`: no run goes on forever, and every one can end;
  * `Stage.Sound`, `reaches_sound`: what holds at every stage of every run;
  * `runs_iff`: a run ends as if the inputs were converted one after the other;
  * `run_meets_specification`: what is printed, written and reported;
  * `failures_reported`: which failures are reported where documents are written.
-/
import Mathlib.Data.List.Infix
import Mathlib.Logic.Relation
import TreeDoc.Proofs.Format
import TreeDoc.Proofs.Saving

namespace TreeDoc

open Files (FileSystem)
open Program (File)

/-! ## Reading and converting -/

/-- The file in the text that was read at a path, or the one that a JSON pointer
    selects in it. -/
def loadText (path : String) (pointer : Option String) (text : String) : Except LoadError File :=
  match pointer with
  | none => File.ofText path text
  | some pointer => do
    let v ← (Decode.readFirst text).mapError (.undecodable path text)
    match v.get? pointer with
    | none => .error (.pointerMiss path pointer)
    | some selected => File.ofValue path selected

theorem loadFile_eq_loadText (fs : FileSystem) (path : String) (pointer : Option String) :
    loadFile fs path pointer =
      (fs.read path).mapError (.unreadable path) >>= loadText path pointer := by
  cases pointer <;> rfl

namespace Command

open Relation (ReflTransGen)

/-- The document made of what was read at a path. -/
def Request.convertRead (r : Request) (path : String) (content : Except Files.Error String) :
    Except LoadError String := do
  let text ← content.mapError (.unreadable path)
  let f ← loadText path r.pointer text
  let d := Model.document r.style f
  return if r.compact then d.compact else d.pretty

theorem Request.text_eq_convertRead (r : Request) (fs : FileSystem) (path : String) :
    r.text fs path = r.convertRead path (fs.read path) := by
  rw [Request.text, Request.convertRead, loadFile_eq_loadText]
  cases fs.read path <;> rfl

/-- The error of an input that has no document. -/
def Request.error? (r : Request) (fs : FileSystem) (path : String) : Option LoadError :=
  match r.text fs path with
  | .ok _ => none
  | .error e => some e

theorem Request.error?_eq_none_iff {r : Request} {fs : FileSystem} {path : String} :
    r.error? fs path = none ↔ ∃ text, r.text fs path = .ok text := by
  rw [Request.error?]
  cases r.text fs path <;> simp

/-- The inputs with their documents or errors. -/
def Request.results (r : Request) (fs : FileSystem) (paths : List String) :
    List (String × Except LoadError String) :=
  paths.map fun path => (path, r.text fs path)

/-! ## Stages -/

/-- How far an input has come. -/
inductive Progress where
  | waiting
  | opened (content : Except Files.Error String)
  | converted (result : Except LoadError String)

/-- How far a run has come. -/
inductive Stage where
  /-- The inputs are read and converted. -/
  | converting (files : FileSystem) (inputs : List (String × Progress))
  /-- The documents are saved, after `failed` failures. -/
  | saving (o : Outcome) (failed : Nat) (rest : List (String × Except LoadError String))
  | ended (o : Outcome)

/-- The outcome of a run in which all documents are saved. -/
def Outcome.concluded (o : Outcome) (failed : Nat) : Outcome :=
  if failed = 0 then o else { o with failure := some (.notConverted failed) }

@[simp]
theorem Outcome.concluded_stderr (o : Outcome) (failed : Nat) :
    (o.concluded failed).stderr = o.stderr := by
  rw [Outcome.concluded]
  split <;> rfl

theorem Outcome.concluded_failure {o : Outcome} (h : o.failure = none) {failed : Nat} :
    (o.concluded failed).failure = none ↔ failed = 0 := by
  rw [Outcome.concluded]
  split <;> simp_all

/-- What may happen next. Any input may be the next that is read or converted. -/
inductive Step (r : Request) : Stage → Stage → Prop
  | read {files : FileSystem} {path : String} (before after : List (String × Progress)) :
    Step r (.converting files (before ++ (path, .waiting) :: after))
      (.converting files (before ++ (path, .opened (files.read path)) :: after))
  | convert {files : FileSystem} {path : String} {content : Except Files.Error String}
      (before after : List (String × Progress)) :
    Step r (.converting files (before ++ (path, .opened content) :: after))
      (.converting files (before ++ (path, .converted (r.convertRead path content)) :: after))
  | collect {files : FileSystem} (results : List (String × Except LoadError String)) :
    Step r (.converting files (results.map fun x => (x.1, .converted x.2)))
      (.saving { system := files } 0 results)
  | save {o : Outcome} {failed : Nat} {path text : String}
      {rest : List (String × Except LoadError String)} :
    (r.save o path text).failure = none →
      Step r (.saving o failed ((path, .ok text) :: rest))
        (.saving (r.save o path text) failed rest)
  | refuse {o : Outcome} {failed : Nat} {path text : String}
      {rest : List (String × Except LoadError String)} :
    (r.save o path text).failure ≠ none →
      Step r (.saving o failed ((path, .ok text) :: rest)) (.ended (r.save o path text))
  | report {o : Outcome} {failed : Nat} {path : String} {e : LoadError}
      {rest : List (String × Except LoadError String)} :
    Step r (.saving o failed ((path, .error e) :: rest))
      (.saving { o with stderr := o.stderr ++ Request.failedLine e } (failed + 1) rest)
  | finish {o : Outcome} {failed : Nat} :
    Step r (.saving o failed []) (.ended (o.concluded failed))

/-- The first stage of a run: the inputs are found, or it is over. -/
def Request.start (r : Request) (fs : FileSystem) : Stage :=
  match resolveInputs fs r.inputs with
  | .error e => .ended { system := fs, failure := some (.unresolved e) }
  | .ok paths => .converting fs (paths.map fun path => (path, .waiting))

/-- A run comes to a stage. -/
def Reaches (r : Request) (fs : FileSystem) (s : Stage) : Prop :=
  ReflTransGen (Step r) (r.start fs) s

/-- A run ends with an outcome. -/
def Runs (r : Request) (fs : FileSystem) (o : Outcome) : Prop := Reaches r fs (.ended o)

variable {r : Request} {fs : FileSystem}

/-! ## Every run ends -/

/-- How much is left to do with an input. -/
def Progress.left : Progress → Nat
  | waiting => 3
  | opened _ => 2
  | converted _ => 1

/-- How much is left to do with inputs. -/
def inputsLeft : List (String × Progress) → Nat
  | [] => 0
  | x :: inputs => x.2.left + inputsLeft inputs

/-- How much is left to do in a run, at most. -/
def Stage.left : Stage → Nat
  | converting _ inputs => inputsLeft inputs + 2
  | saving _ _ rest => rest.length + 1
  | ended _ => 0

theorem inputsLeft_append (as bs : List (String × Progress)) :
    inputsLeft (as ++ bs) = inputsLeft as + inputsLeft bs := by
  induction as with
  | nil => simp [inputsLeft]
  | cons a as ih => rw [List.cons_append, inputsLeft, inputsLeft, ih, Nat.add_assoc]

theorem inputsLeft_converted (results : List (String × Except LoadError String)) :
    inputsLeft (results.map fun x => (x.1, .converted x.2)) = results.length := by
  induction results with
  | nil => rfl
  | cons x results ih => rw [List.map_cons, inputsLeft, ih, List.length_cons, Nat.add_comm]; rfl

theorem Step.left_lt {s s' : Stage} (h : Step r s s') : s'.left < s.left := by
  cases h with
  | collect results => simp [Stage.left, inputsLeft_converted]
  | read before after | convert before after =>
    simp [Stage.left, inputsLeft_append, inputsLeft, Progress.left]
  | _ => simp [Stage.left]

/-- **No run goes on forever.** -/
theorem step_wellFounded (r : Request) : WellFounded fun s' s => Step r s s' :=
  Subrelation.wf Step.left_lt (measure Stage.left).wf

/-- An input is not converted yet, or all of them are. -/
theorem exists_unconverted (inputs : List (String × Progress)) :
    (∃ before path after, inputs = before ++ (path, .waiting) :: after) ∨
    (∃ before path content after, inputs = before ++ (path, .opened content) :: after) ∨
    ∃ results : List (String × Except LoadError String),
      inputs = results.map fun x => (x.1, .converted x.2) := by
  induction inputs with
  | nil => exact .inr (.inr ⟨[], rfl⟩)
  | cons x inputs ih =>
    obtain ⟨path, progress⟩ := x
    cases progress with
    | waiting => exact .inl ⟨[], path, inputs, rfl⟩
    | opened content => exact .inr (.inl ⟨[], path, content, inputs, rfl⟩)
    | converted result =>
      rcases ih with ⟨before, q, after, rfl⟩ | ⟨before, q, content, after, rfl⟩ | ⟨results, rfl⟩
      · exact .inl ⟨(path, .converted result) :: before, q, after, rfl⟩
      · exact .inr (.inl ⟨(path, .converted result) :: before, q, content, after, rfl⟩)
      · exact .inr (.inr ⟨(path, result) :: results, rfl⟩)

/-- A run that is not over can go on. -/
theorem exists_step (r : Request) (s : Stage) : (∃ o, s = .ended o) ∨ ∃ s', Step r s s' := by
  cases s with
  | ended o => exact .inl ⟨o, rfl⟩
  | converting files inputs =>
    right
    rcases exists_unconverted inputs with
      ⟨before, path, after, rfl⟩ | ⟨before, path, content, after, rfl⟩ | ⟨results, rfl⟩
    · exact ⟨_, .read before after⟩
    · exact ⟨_, .convert before after⟩
    · exact ⟨_, .collect results⟩
  | saving o failed rest =>
    right
    cases rest with
    | nil => exact ⟨_, .finish⟩
    | cons x rest =>
      obtain ⟨path, result⟩ := x
      cases result with
      | error e => exact ⟨_, .report⟩
      | ok text =>
        by_cases hsave : (r.save o path text).failure = none
        · exact ⟨_, .save hsave⟩
        · exact ⟨_, .refuse hsave⟩

/-- **Every run can end,** whatever has happened so far. -/
theorem exists_ended (r : Request) (s : Stage) : ∃ o, ReflTransGen (Step r) s (.ended o) := by
  induction s using (step_wellFounded r).induction with
  | _ s ih =>
    rcases exists_step r s with ⟨o, rfl⟩ | ⟨s', hstep⟩
    · exact ⟨o, .refl⟩
    · obtain ⟨o, ho⟩ := ih s' hstep
      exact ⟨o, .head hstep ho⟩

/-! ## What holds at every stage -/

/-- What is known about an input is what was there when the run began. -/
def Progress.Sound (r : Request) (fs : FileSystem) (path : String) : Progress → Prop
  | waiting => True
  | opened content => content = fs.read path
  | converted result => result = r.text fs path

/-- The outcome of a run whose inputs are converted one after the other. -/
def Request.sequential (r : Request) (fs : FileSystem) (paths : List String) : Outcome :=
  let o := r.saveAll { system := fs } (r.results fs paths)
  if o.failure.isSome then o else o.concluded (Request.failures (r.results fs paths))

/-- **The invariant of runs.** As long as inputs are read, no file is changed, and what
    is known about them is what was there when the run began. What is left to save are
    the last of these results, and saving them leads to the outcome of the run. -/
def Stage.Sound (r : Request) (fs : FileSystem) (paths : List String) : Stage → Prop
  | converting files inputs => files = fs ∧ inputs.map Prod.fst = paths ∧
      ∀ x ∈ inputs, x.2.Sound r fs x.1
  | saving o failed rest => o.failure = none ∧ ∃ told, r.results fs paths = told ++ rest ∧
      r.saveAll { system := fs } told = o ∧ Request.failures told = failed
  | ended o => o = r.sequential fs paths

theorem Request.failures_append (as bs : List (String × Except LoadError String)) :
    Request.failures (as ++ bs) = Request.failures as + Request.failures bs := List.countP_append

theorem Request.convert_eq {paths : List String} (h : resolveInputs fs r.inputs = .ok paths) :
    r.convert fs = r.sequential fs paths := by
  have hconvert : r.convert fs =
      let o := r.saveAll { system := fs } (r.results fs paths)
      if o.failure.isSome || Request.failures (r.results fs paths) = 0 then o
      else { o with
        failure := some (.notConverted (Request.failures (r.results fs paths))) } := by
    simp only [Request.convert, h, Request.results]
    rfl
  rw [hconvert, Request.sequential, Outcome.concluded]
  by_cases hfailure : (r.saveAll { system := fs } (r.results fs paths)).failure.isSome
  · simp [hfailure]
  · by_cases hzero : Request.failures (r.results fs paths) = 0 <;> simp [hfailure, hzero]

/-- One input advances, the others stay as they are. -/
theorem sound_advance {path : String} {p q : Progress} {before after : List (String × Progress)}
    (h : ∀ x ∈ before ++ (path, p) :: after, x.2.Sound r fs x.1)
    (hq : p.Sound r fs path → q.Sound r fs path) :
    ∀ x ∈ before ++ (path, q) :: after, x.2.Sound r fs x.1 := by
  rw [List.forall_mem_append, List.forall_mem_cons] at h ⊢
  exact ⟨h.1, hq h.2.1, h.2.2⟩

/-- Nothing that may happen breaks the invariant. -/
theorem Step.sound {paths : List String} {s s' : Stage} (h : Step r s s')
    (hs : s.Sound r fs paths) : s'.Sound r fs paths := by
  cases h with
  | read before after =>
    obtain ⟨rfl, hpaths, hinputs⟩ := hs
    exact ⟨rfl, by simpa using hpaths, sound_advance hinputs fun _ => rfl⟩
  | @convert _ path content before after =>
    obtain ⟨rfl, hpaths, hinputs⟩ := hs
    refine ⟨rfl, by simpa using hpaths, sound_advance hinputs fun hcontent => ?_⟩
    show r.convertRead path content = r.text _ path
    rw [r.text_eq_convertRead, ← show content = _ from hcontent]
  | collect results =>
    obtain ⟨hfiles, hpaths, hinputs⟩ := hs
    refine ⟨rfl, [], ?_, by rw [hfiles]; rfl, rfl⟩
    have hresults : ∀ x ∈ results, (x.1, r.text fs x.1) = x := fun x hx => by
      have hx' : x.2 = r.text fs x.1 := hinputs (x.1, .converted x.2) (List.mem_map_of_mem hx)
      rw [← hx']
    rw [← hpaths, Request.results, List.map_map, List.map_map]
    exact (List.map_congr_left hresults).trans (List.map_id _)
  | @save o failed path text rest hsave =>
    obtain ⟨ho, told, hsplit, hold, hfailed⟩ := hs
    refine ⟨hsave, told ++ [(path, .ok text)], by simp [hsplit], ?_, ?_⟩
    · rw [Request.saveAll_append rfl (hold ▸ ho), hold, Request.saveAll_ok hsave]
      rfl
    · rw [Request.failures_append, hfailed]
      rfl
  | @refuse o failed path text rest hsave =>
    obtain ⟨ho, told, hsplit, hold, -⟩ := hs
    show r.save o path text = r.sequential fs paths
    have hall : r.saveAll { system := fs } (r.results fs paths) = r.save o path text := by
      rw [hsplit, Request.saveAll_append rfl (hold ▸ ho), hold, Request.saveAll_refused hsave]
    rw [Request.sequential, hall, if_pos (Option.isSome_iff_ne_none.2 hsave)]
  | @report o failed path e rest =>
    obtain ⟨ho, told, hsplit, hold, hfailed⟩ := hs
    refine ⟨ho, told ++ [(path, .error e)], by simp [hsplit], ?_, ?_⟩
    · rw [Request.saveAll_append rfl (hold ▸ ho), hold, Request.saveAll_error]
      rfl
    · rw [Request.failures_append, hfailed]
      rfl
  | @finish o failed =>
    obtain ⟨ho, told, hsplit, hold, hfailed⟩ := hs
    rw [List.append_nil] at hsplit
    show o.concluded failed = r.sequential fs paths
    rw [Request.sequential, hsplit, hold, hfailed, ho]
    rfl

/-- **Every stage of every run** keeps the invariant. -/
theorem reaches_sound {paths : List String} (h : resolveInputs fs r.inputs = .ok paths)
    {s : Stage} (hs : Reaches r fs s) : s.Sound r fs paths := by
  induction hs with
  | refl =>
    rw [Request.start, h]
    exact ⟨rfl, by simp [Function.comp_def], fun x hx => by
      obtain ⟨path, -, rfl⟩ := List.mem_map.1 hx
      trivial⟩
  | tail _ hstep ih => exact hstep.sound ih

/-- A run that is over stays as it is. -/
theorem ended_reaches {o : Outcome} {s : Stage} (h : ReflTransGen (Step r) (.ended o) s) :
    s = .ended o := by
  induction h with
  | refl => rfl
  | tail _ hstep ih =>
    subst ih
    cases hstep

/-- **The order does not matter.** A run ends with one outcome only: that of converting
    the inputs one after the other. -/
theorem runs_iff {o : Outcome} : Runs r fs o ↔ o = r.convert fs := by
  have hruns : ∀ {o}, Runs r fs o → o = r.convert fs := fun {o} h => by
    cases hpaths : resolveInputs fs r.inputs with
    | error e =>
      rw [Runs, Reaches, Request.start, hpaths] at h
      simp only [Request.convert, hpaths]
      exact Stage.ended.inj (ended_reaches h)
    | ok paths =>
      rw [Request.convert_eq hpaths]
      exact reaches_sound hpaths h
  constructor
  · exact hruns
  · rintro rfl
    obtain ⟨o, ho⟩ := exists_ended r (r.start fs)
    exact hruns ho ▸ ho

/-! ## What is printed and reported -/

theorem Request.failures_results (paths : List String) :
    Request.failures (r.results fs paths) = (paths.filterMap (r.error? fs)).length := by
  induction paths with
  | nil => rfl
  | cons path paths ih =>
    have hcons : r.results fs (path :: paths) =
        (path, r.text fs path) :: r.results fs paths := rfl
    rw [hcons, Request.failures, List.countP_cons, ← Request.failures, ih]
    cases h : r.text fs path <;> simp [Request.error?, h, Except.isOk, Except.toBool]

theorem Request.lines_printed (hdir : r.outDir = none) (paths : List String) :
    String.join ((r.results fs paths).map r.line) =
      String.join ((paths.filterMap (r.error? fs)).map failedLine) := by
  induction paths with
  | nil => rfl
  | cons path paths ih =>
    have hcons : r.results fs (path :: paths) =
        (path, r.text fs path) :: r.results fs paths := rfl
    rw [hcons, List.map_cons, String.join_cons, ih]
    cases h : r.text fs path <;>
      simp [Request.error?, h, Request.line, Request.savedLine, hdir]

/-- **Printed runs.** Without a folder to write to, the documents of the inputs that have
    one are printed in order, each with a newline, one line is reported for each of the
    others in order, no file is written, and these failures are counted. -/
theorem Request.sequential_printed (hdir : r.outDir = none) (paths : List String) :
    r.sequential fs paths =
      { stdout := String.join ((paths.filterMap fun p => (r.text fs p).toOption).map (· ++ "\n"))
        stderr := String.join ((paths.filterMap (r.error? fs)).map failedLine)
        system := fs
        failure := if paths.filterMap (r.error? fs) = [] then none
          else some (.notConverted (paths.filterMap (r.error? fs)).length) } := by
  rw [Request.sequential, Request.saveAll_printed hdir rfl, Request.failures_results,
    Request.lines_printed hdir]
  simp only [Request.results, List.filterMap_map, Function.comp_def, Outcome.concluded,
    List.length_eq_zero_iff, String.empty_append]
  split
  · rename_i h
    cases h
  · split <;> rfl

/-- **Successful runs.** All inputs have documents, and all of them are saved. -/
theorem Request.sequential_success {paths : List String}
    (h : (r.sequential fs paths).failure = none) :
    r.sequential fs paths = r.saveAll { system := fs } (r.results fs paths) ∧
      ∀ path ∈ paths, ∃ text, r.text fs path = .ok text := by
  rw [Request.sequential] at h ⊢
  by_cases hsaved : (r.saveAll { system := fs } (r.results fs paths)).failure = none
  · simp only [hsaved, Option.isSome_none, Bool.false_eq_true, if_false] at h ⊢
    rw [Outcome.concluded_failure hsaved] at h
    refine ⟨by rw [Outcome.concluded, if_pos h], fun path hpath => ?_⟩
    rw [Request.failures_results, List.length_eq_zero_iff, List.filterMap_eq_nil_iff] at h
    exact Request.error?_eq_none_iff.1 (h path hpath)
  · rw [if_pos (Option.isSome_iff_ne_none.2 hsaved)] at h
    exact absurd h hsaved

/-! ## Files with nothing but a name -/

/-- A file that has only its package name. -/
def packageFile (name : String) : File where
  packageName := name
  imports := []
  constants := []
  services := []
  functions := []
  connectors := []
  structs := []
  typeConverters := []
  mainInvoker := none

/-- The file as an object. -/
def packageValue (name : String) : Json.Value := .object [("package_name", .string name)]

/-- The document of the file on one line. -/
def packageText (name : String) : String := (Model.document {} (packageFile name)).compact

theorem packageText_eq (name : String) :
    packageText name =
      (Json.Value.object
        [("root", .array [(Model.packageNode (packageFile name)).value])]).compact := by
  have hroot : (Model.document {} (packageFile name)).root =
      [Model.packageNode (packageFile name)] := by
    simp [Model.document, File.ordered, File.topLevel, packageFile]
  rw [packageText, Document.compact, Document.value, hroot]
  rfl

theorem packageFile_text {path name : String}
    (hread : fs.read path = .ok (packageValue name).compact) (hpointer : r.pointer = none)
    (hstyle : r.structuredOnly = false) (hcompact : r.compact = true) :
    r.text fs path = .ok (packageText name) := by
  have hdepth : (packageValue name).depth ≤ Decode.maxLevels := by
    simp [packageValue, Json.Value.depth, Json.entriesDepth, Decode.maxLevels]
  have hload : loadFile fs path none = .ok (packageFile name) :=
    (loadFile_text_iff hread (Json.compact_spells rfl).text hdepth).2 rfl
  have hdefault : r.style = {} := by rw [Request.style, hstyle]; rfl
  rw [Request.text, hpointer, hload, hdefault, hcompact]
  rfl

theorem missing_text {path : String} (hread : fs.read path = .error .notFound) :
    r.text fs path = .error (.unreadable path .notFound) := by
  rw [Request.text, loadFile, hread]
  rfl

/-! ## The specification of runs -/

/-- **A run meets its specification, in whatever order its inputs are converted.** No run
    goes on forever and every one can end, always as the run that converts one input
    after the other. If the inputs are not found, nothing is printed or written. If they
    are, then as long as inputs are converted the files are those from before the run,
    and the document or error of each is what these files give, also when the documents
    are saved. Without a folder to write to, the documents are printed in the order of
    the inputs, every failure is reported in this order, no file is written, and the run
    fails if and only if an input did, with the number of those that did. -/
theorem run_meets_specification (r : Request) (fs : FileSystem) (hrun : r.noOp = false) :
    (WellFounded fun s' s => Step r s s') ∧
    (∀ s, Reaches r fs s → ∃ o, ReflTransGen (Step r) s (.ended o)) ∧
    ∀ o, Runs r fs o → o = r.run fs ∧
      (∀ e, resolveInputs fs r.inputs = .error e →
        o.failure = some (.unresolved e) ∧ o.stdout = "" ∧ o.system = fs) ∧
      ∀ paths, resolveInputs fs r.inputs = .ok paths →
        (∀ files inputs, Reaches r fs (.converting files inputs) →
          files = fs ∧ inputs.map Prod.fst = paths ∧
          ∀ path result, (path, .converted result) ∈ inputs → result = r.text fs path) ∧
        (∀ o' failed rest, Reaches r fs (.saving o' failed rest) →
          rest <:+ paths.map fun path => (path, r.text fs path)) ∧
        (r.outDir = none →
          o.stdout =
            String.join ((paths.filterMap fun p => (r.text fs p).toOption).map (· ++ "\n")) ∧
          o.stderr = String.join ((paths.filterMap (r.error? fs)).map fun e =>
            "failed: " ++ e.message ++ "\n") ∧
          o.system = fs ∧
          (o.failure = none ↔ ∀ path ∈ paths, ∃ text, r.text fs path = .ok text) ∧
          ∀ failure, o.failure = some failure →
            failure = .notConverted (paths.filterMap (r.error? fs)).length ∧
            failure.chain = [toString (paths.filterMap (r.error? fs)).length ++
              " input file(s) could not be converted"]) := by
  refine ⟨step_wellFounded r, fun s _ => exists_ended r s, fun o ho => ?_⟩
  have hconvert : o = r.convert fs := runs_iff.1 ho
  refine ⟨by rw [hconvert, Request.run, hrun]; rfl, fun e he => ?_, fun paths hpaths => ?_⟩
  · simp only [hconvert, Request.convert, he, and_self]
  refine ⟨fun files inputs hs => ?_, fun o' failed rest hs => ?_, fun hdir => ?_⟩
  · obtain ⟨hfiles, hinputs, hsound⟩ := reaches_sound hpaths hs
    exact ⟨hfiles, hinputs, fun path result hmem => hsound _ hmem⟩
  · obtain ⟨-, told, hsplit, -⟩ := reaches_sound hpaths hs
    exact ⟨told, hsplit.symm⟩
  · rw [hconvert, Request.convert_eq hpaths, Request.sequential_printed hdir]
    refine ⟨rfl, rfl, rfl, ?_, ?_⟩
    · have hnone : ∀ n, (if paths.filterMap (r.error? fs) = [] then none
          else some (Failure.notConverted n)) = none ↔ paths.filterMap (r.error? fs) = [] :=
        fun n => by split <;> simp_all
      rw [hnone, List.filterMap_eq_nil_iff]
      exact forall₂_congr fun path _ => Request.error?_eq_none_iff
    · intro failure hfailure
      obtain ⟨-, hfailure⟩ := (ite_eq_iff.1 hfailure).resolve_left (by simp)
      obtain rfl := Option.some.inj hfailure
      exact ⟨rfl, rfl⟩

/-- A file system with an input outside the working folder, and with one where the document
    of the other would be written. -/
def overlapSystem : FileSystem where
  root := [("data", .folder [("a.ast.json", .file (some (packageValue "a").compact))]),
    ("work", .folder [("out", .folder [("a.model.json", .file (some (packageValue "b").compact))])])]
  working := ["work"]

/-- A pattern from the root. -/
def dataPattern : Files.Glob.Pattern where
  components := [.name "data", .wild (.anySequence :: ".ast.json".toList.map .char)]
  onlyFolders := false
  absolute := true

theorem overlapSystem_finds :
    resolveInput overlapSystem "/data/*.ast.json" = .ok ["/data/a.ast.json"] := by
  have hparse : Files.Glob.Pattern.parse "/data/*.ast.json" = .ok dataPattern := by cbv
  have hsearch : Files.Glob.search overlapSystem dataPattern = ["/data/a.ast.json"] := by
    have hdata : Files.Glob.Spot.named? overlapSystem.root ⟨"/", []⟩ "data" =
        some ⟨"/data", ["data"]⟩ := rfl
    have hfolder : Files.Glob.folderAt overlapSystem.root ⟨"/data", ["data"]⟩ =
        some [("a.ast.json", .file (some (packageValue "a").compact))] := rfl
    have hmatch : Files.Glob.tokensMatch (.anySequence :: ".ast.json".toList.map .char)
        "a.ast.json".toList = true := by cbv
    show Files.Glob.find overlapSystem.root false dataPattern.components ⟨"/", []⟩ = _
    rw [dataPattern, Files.Glob.find, hdata]
    simp only
    rw [Files.Glob.find, hfolder]
    simp only [List.flatMap_cons, List.flatMap_nil, Files.Glob.find, hmatch]
    rfl
  have hpattern : isPattern "/data/*.ast.json" = true := by decide
  simp only [resolveInput, hpattern, if_true, hparse, hsearch]

/-- The request to print the documents of both, and of an input that is missing. The first is
    found by a pattern from the root, the last by a path from above the working folder. -/
def printRequest : Request :=
  { inputs := ["/data/*.ast.json", "missing.json", "../work/out/a.model.json"], compact := true }

/-- The paths of these inputs. -/
def printPaths : List String := ["/data/a.ast.json", "missing.json", "../work/out/a.model.json"]

theorem printRequest_runs :
    printRequest.noOp = false ∧
    resolveInputs overlapSystem printRequest.inputs = .ok printPaths ∧
    Reaches printRequest overlapSystem (.converting overlapSystem [("/data/a.ast.json", .waiting),
      ("missing.json", .waiting),
      ("../work/out/a.model.json", .opened (.ok (packageValue "b").compact))]) ∧
    (∃ o, Runs printRequest overlapSystem o) ∧
    ∀ o, Runs printRequest overlapSystem o →
      o.stdout = packageText "a" ++ "\n" ++ packageText "b" ++ "\n" ∧
      o.stderr = "failed: failed to read missing.json: No such file or directory (os error 2)\n" ∧
      o.system = overlapSystem ∧ o.failure = some (.notConverted 1) := by
  have hpaths : resolveInputs overlapSystem printRequest.inputs = .ok printPaths := by
    rw [printRequest, resolveInputs, overlapSystem_finds]
    rfl
  have ha : printRequest.text overlapSystem "/data/a.ast.json" = .ok (packageText "a") :=
    packageFile_text rfl rfl rfl rfl
  have hb : printRequest.text overlapSystem "../work/out/a.model.json" = .ok (packageText "b") :=
    packageFile_text rfl rfl rfl rfl
  have hmissing : printRequest.text overlapSystem "missing.json" =
      .error (.unreadable "missing.json" .notFound) := missing_text rfl
  have herrors : printPaths.filterMap (printRequest.error? overlapSystem) =
      [.unreadable "missing.json" .notFound] := by
    simp [printPaths, Request.error?, ha, hb, hmissing]
  obtain ⟨-, hends, hspec⟩ := run_meets_specification printRequest overlapSystem rfl
  have hstart : printRequest.start overlapSystem =
      .converting overlapSystem (printPaths.map fun path => (path, .waiting)) := by
    rw [Request.start, hpaths]
  refine ⟨rfl, hpaths, ?_, hends _ .refl, fun o ho => ?_⟩
  · rw [Reaches, hstart]
    exact .single (.read [("/data/a.ast.json", .waiting), ("missing.json", .waiting)] [])
  obtain ⟨-, -, hok⟩ := hspec o ho
  obtain ⟨-, -, hprinted⟩ := hok _ hpaths
  obtain ⟨hstdout, hstderr, hfiles, hnone, hfailure⟩ := hprinted rfl
  refine ⟨?_, ?_, hfiles, ?_⟩
  · rw [hstdout, printPaths]
    simp [ha, hb, hmissing, Except.toOption, String.append_assoc]
  · rw [hstderr, herrors]
    decide
  · cases h : o.failure with
    | none =>
      obtain ⟨text, htext⟩ := hnone.1 h "missing.json" (by simp [printPaths])
      rw [hmissing] at htext
      cases htext
    | some failure =>
      obtain ⟨rfl, -⟩ := hfailure failure h
      rw [herrors]
      rfl

/-- **Which failures are reported.** A run reports on the inputs in order, on each once:
    on all of them, or on those before the first whose document cannot be saved, and then
    it fails for this reason. So the failures of all inputs are reported if and only if
    no input after such a document fails; without a folder to write to they always are.
    And the run fails whenever an input does. -/
theorem failures_reported {o : Outcome} {paths : List String} (hrun : Runs r fs o)
    (hpaths : resolveInputs fs r.inputs = .ok paths) :
    ∃ told rest, paths = told ++ rest ∧
      o.stderr = String.join (told.map fun path => r.line (path, r.text fs path)) ∧
      (r.saveAll { system := fs } (r.results fs told)).failure = none ∧
      (rest = [] ∨ ∃ path later text cause, rest = path :: later ∧
        r.text fs path = .ok text ∧ o.failure = some cause ∧
        (r.save (r.saveAll { system := fs } (r.results fs told)) path text).failure =
          some cause) ∧
      (r.outDir = none → rest = []) ∧
      (told.filterMap (r.error? fs) = paths.filterMap (r.error? fs) ↔
        ∀ path ∈ rest, r.error? fs path = none) ∧
      (o.failure = none ↔ rest = [] ∧ ∀ path ∈ paths, r.error? fs path = none) := by
  have ho : o = r.sequential fs paths := by
    rw [runs_iff.1 hrun, Request.convert_eq hpaths]
  rcases Request.saveAll_split (o := { system := fs }) rfl (r.results fs paths) with
    hall | ⟨told, path, text, later, hsplit, htold, hsave, heq⟩
  · have hconcluded : o = (r.saveAll { system := fs } (r.results fs paths)).concluded
        (paths.filterMap (r.error? fs)).length := by
      rw [ho, Request.sequential, hall, Request.failures_results]
      rfl
    refine ⟨paths, [], (List.append_nil _).symm, ?_, hall, .inl rfl, fun _ => rfl, by simp, ?_⟩
    · rw [hconcluded, Outcome.concluded_stderr, Request.saveAll_stderr rfl hall, Request.results,
        List.map_map]
      rfl
    · rw [hconcluded, Outcome.concluded_failure hall, List.length_eq_zero_iff,
        List.filterMap_eq_nil_iff]
      simp
  · obtain ⟨told', rest, rfl, htold', hrest⟩ := List.map_eq_append_iff.1 hsplit
    obtain rfl : r.results fs told' = told := htold'
    obtain ⟨path', later', rfl, hpath, -⟩ := List.map_eq_cons_iff.1 hrest
    obtain ⟨rfl, htext⟩ : path' = path ∧ r.text fs path' = .ok text := Prod.mk.inj hpath
    obtain ⟨cause, hcause⟩ := Option.ne_none_iff_exists'.1 hsave
    have hend : o = r.save (r.saveAll { system := fs } (r.results fs told')) path' text := by
      rw [ho, Request.sequential, heq, if_pos (Option.isSome_iff_ne_none.2 hsave)]
    have hfailure : o.failure = some cause := by rw [hend, hcause]
    refine ⟨told', path' :: later', rfl, ?_, htold,
      .inr ⟨path', later', text, cause, rfl, htext, hfailure, hcause⟩, fun hdir => ?_, ?_, ?_⟩
    · rw [hend, Request.save_refused htold hsave, Request.saveAll_stderr rfl htold,
        Request.results, List.map_map]
      rfl
    · exact absurd (by rw [Request.save_printed hdir]; exact htold) hsave
    · rw [List.filterMap_append, List.self_eq_append_right, List.filterMap_eq_nil_iff]
    · rw [hfailure]
      simp

/-- A folder with an input, and with a folder where its document would be written. -/
def blockedFolder : FileSystem := .ofFolder
  [("a.ast.json", .file (some (packageValue "a").compact)),
    ("out", .folder [("a.model.json", .folder [])])]

/-- The request to write the document of the input, and that of one that is missing. -/
def blockedRequest : Request :=
  { inputs := ["a.ast.json", "missing.json"], outDir := some "out", compact := true }

/-- The document cannot be written, and nothing is said about the missing input. -/
theorem blockedRequest_runs :
    resolveInputs blockedFolder blockedRequest.inputs = .ok blockedRequest.inputs ∧
    blockedRequest.error? blockedFolder "missing.json" =
      some (.unreadable "missing.json" .notFound) ∧
    (∃ o, Runs blockedRequest blockedFolder o) ∧
    ∀ o, Runs blockedRequest blockedFolder o →
      o.failure = some (.notWritten "out/a.model.json" .isFolder) ∧ o.stderr = "" := by
  have hpaths : resolveInputs blockedFolder blockedRequest.inputs = .ok blockedRequest.inputs := rfl
  have ha : blockedRequest.text blockedFolder "a.ast.json" = .ok (packageText "a") :=
    packageFile_text rfl rfl rfl rfl
  have hmissing : blockedRequest.text blockedFolder "missing.json" =
      .error (.unreadable "missing.json" .notFound) := missing_text rfl
  have hsave : (blockedRequest.save { system := blockedFolder } "a.ast.json"
      (packageText "a")).failure = some (.notWritten "out/a.model.json" .isFolder) := rfl
  refine ⟨hpaths, by rw [Request.error?, hmissing], exists_ended _ _, fun o ho => ?_⟩
  obtain ⟨told, rest, hsplit, hstderr, htold, hrest, -⟩ := failures_reported ho hpaths
  cases told with
  | nil =>
    obtain rfl : ["a.ast.json", "missing.json"] = rest := hsplit
    obtain ⟨path, later, text, cause, hcons, htext, hfailure, hcause⟩ :=
      hrest.resolve_left (by simp)
    obtain ⟨rfl, -⟩ := List.cons.inj hcons
    obtain rfl : packageText "a" = text := Except.ok.inj (ha.symm.trans htext)
    rw [← hcause] at hfailure
    exact ⟨hfailure.trans hsave, hstderr⟩
  | cons path told =>
    obtain ⟨rfl, -⟩ : "a.ast.json" = path ∧ _ := List.cons.inj hsplit
    -- what has been told about would be saved, but the first document is not
    rw [Request.results, List.map_cons, ha, Request.saveAll_refused (by simp [hsave]),
      hsave] at htold
    cases htold

end Command

end TreeDoc
