/-
  Documents that are written and then expected.

  The document of a source file may be written by the one command and set beside the
  file as the document that the other command expects. The expected text is read with
  the same limit as every text, and a document is deeper than its source: the children
  of a node are an array around it. So there are sources that are loaded whose document
  is not read again.

  * `Request.text_spells`: what is written spells the document;
  * `negating`, `negating_depth`: a source with a given number of negations, and the
    depth of its document;
  * `negatingFolder`, `negating_loads`: the folder with both, from which the source is
    loaded;
  * `Golden.check_written_iff`: a fixture whose document has been written passes if and
    only if the document is not too deep.
-/
import TreeDoc.Command.Convert
import TreeDoc.Command.Fixtures
import TreeDoc.Proofs.Comparison
import TreeDoc.Proofs.Format

namespace TreeDoc.Command

open Decode Json Model Program
open Files (FileSystem)

/-! ## Written documents -/

/-- What is written for a file spells its document. -/
theorem Request.text_spells {r : Request} {fs : FileSystem} {path text : String} {f : File}
    (hload : loadFile fs path r.pointer = .ok f) (htext : r.text fs path = .ok text) :
    SpellsText text.toList (document r.style f).value := by
  have hintegral := (document r.style f).value_integral
  rw [Request.text, hload] at htext
  obtain rfl := Except.ok.inj htext
  cases r.compact with
  | true => exact (compact_spells hintegral).text
  | false => exact (prettyAt_spells 0 hintegral).text

/-! ## Negations -/

/-- A variable under a number of negations. -/
def negations : Nat → Expr
  | 0 => .variable "x"
  | n + 1 => .unary .not (negations n)

/-- A function that replies with a negated variable. -/
def negator (n : Nat) : FunctionDef where
  name := "f"
  position := 0
  isPublic := false
  annotations := []
  locals := []
  parameters := []
  connectors := []
  results := []
  body := ⟨[.reply (negations n)]⟩

/-- A file with this function. -/
def negating (n : Nat) : File where
  packageName := "deep"
  imports := []
  constants := []
  services := []
  functions := [negator n]
  connectors := []
  structs := []
  typeConverters := []
  mainInvoker := none

/-- The negations as objects. -/
def negationsValue : Nat → Value
  | 0 => .object [("kind", .string "variable-ref"), ("name", .string "x")]
  | n + 1 => .object [("kind", .string "unary"), ("op", .string "not"),
      ("operand", negationsValue n)]

/-- The function as an object. -/
def negatorValue (n : Nat) : Value :=
  .object [("name", .string "f"), ("body", .object [("statements",
    .array [.object [("kind", .string "reply"), ("expr", negationsValue n)]])])]

/-- The file as an object. -/
def negatingValue (n : Nat) : Value :=
  .object [("package_name", .string "deep"), ("functions", .array [negatorValue n])]

theorem negations_writes (n : Nat) : Writes (exprCode (negations n)) (negationsValue n) := by
  induction n with
  | zero => exact .nodeObject (.written .atom .nil) (.refl _)
  | succ n ih => exact .nodeObject (.written .atom (.written ih .nil)) (.refl _)

theorem negator_writes (n : Nat) : Writes (functionCode (negator n)) (negatorValue n) := by
  have hreply : Writes (stmtCode (.reply (negations n)))
      (.object [("kind", .string "reply"), ("expr", negationsValue n)]) :=
    .nodeObject (.written (negations_writes n) .nil) (.refl _)
  have hbody : Writes (blockCode ⟨[.reply (negations n)]⟩) (.object [("statements",
      .array [.object [("kind", .string "reply"), ("expr", negationsValue n)]])]) :=
    .recordObject (.written (.list (.cons hreply .nil)) .nil) (.refl _)
  exact .recordObject (.written .atom (.omitted (.omitted (.omitted (.omitted (.omitted
    (.omitted (.omitted (.written hbody .nil))))))))) (.refl _)

theorem negating_writes (n : Nat) : Writes (fileCode (negating n)) (negatingValue n) :=
  .recordObject (.written .atom (.omitted (.omitted (.omitted (.written
    (.list (.cons (negator_writes n) .nil))
    (.omitted (.omitted (.omitted (.omitted .nil))))))))) (.refl _)

theorem negationsValue_integral (n : Nat) : (negationsValue n).integral = true := by
  induction n with
  | zero => rfl
  | succ n ih => simp [negationsValue, Value.integral, integralEntries, ih]

theorem negationsValue_depth (n : Nat) : (negationsValue n).depth = n + 1 := by
  induction n with
  | zero => rfl
  | succ n ih => simp [negationsValue, Value.depth, entriesDepth, ih]

theorem negatingValue_integral (n : Nat) : (negatingValue n).integral = true := by
  simp [negatingValue, negatorValue, Value.integral, integralEntries, integralItems,
    negationsValue_integral]

theorem negatingValue_depth (n : Nat) : (negatingValue n).depth = n + 7 := by
  simp [negatingValue, negatorValue, Value.depth, entriesDepth, itemsDepth, negationsValue_depth]

/-- Every negation adds two levels to the document. -/
theorem negations_node (n : Nat) :
    ∃ m, exprNode (negations n) = some m ∧ m.value.depth = 2 * n + 1 := by
  induction n with
  | zero => exact ⟨_, by rw [negations, exprNode], rfl⟩
  | succ n ih =>
    obtain ⟨m, hm, hdepth⟩ := ih
    refine ⟨parent .unary [m], by rw [negations, exprNode, hm]; rfl, ?_⟩
    rw [Document.Node.depth_of_children rfl]
    simp [Document.nodeValues, itemsDepth, hdepth]
    omega

theorem negator_depth (n : Nat) : (functionTree {} (negator n)).value.depth = 2 * n + 5 := by
  obtain ⟨m, hm, hdepth⟩ := negations_node n
  have hreply : stmtListNodes {} [.reply (negations n)] =
      [replyNode (some (negations n).source) [m]] := by
    simp only [stmtListNodes, stmtNodes, hm]
    rfl
  have hreplyDepth : (replyNode (some (negations n).source) [m]).value.depth = 2 * n + 3 := by
    rw [Document.Node.depth_of_children rfl]
    simp [Document.nodeValues, itemsDepth, hdepth]
  have hresults : (returnTypeNode []).value.depth = 2 := rfl
  have hgroups : (functionTree {} (negator n)).groups = [("annotations", []),
      ("children", returnTypeNode [] :: stmtListNodes {} [.reply (negations n)])] := rfl
  rw [Document.Node.depth_eq, hgroups, hreply]
  simp [Document.groupValues, Document.nodeValues, entriesDepth, itemsDepth, Value.depth,
    hreplyDepth, hresults]

/-- **The depth of the document** grows twice as fast as that of the source. -/
theorem negating_depth (n : Nat) : (document {} (negating n)).value.depth = 2 * n + 7 := by
  have hroot : (document {} (negating n)).root =
      [packageNode (negating n), functionTree {} (negator n)] := by
    simp [document, File.ordered, File.topLevel, negating, topLevelTree]
  have hpackage : (packageNode (negating n)).value.depth = 1 := rfl
  rw [Document.value, hroot]
  simp [Value.depth, entriesDepth, itemsDepth, Document.nodeValues, hpackage, negator_depth]

/-! ## The folder of the fixture -/

/-- A folder with the source of the negations and with their document on one line. -/
def negatingFolder (n : Nat) : FileSystem := .ofFolder
  [("fixtures", .folder [("deep.ast.json", .file (some (negatingValue n).compact)),
    ("deep.model.json", .file (some (document {} (negating n)).compact))])]

/-- The path of the source. -/
def negatingPath : String := "fixtures/deep.ast.json"

theorem negating_loads {n : Nat} (h : n ≤ 120) :
    loadFile (negatingFolder n) negatingPath none = .ok (negating n) := by
  have hread : (negatingFolder n).read negatingPath = .ok (negatingValue n).compact := rfl
  have htext : SpellsText (negatingValue n).compact.toList (negatingValue n) :=
    (compact_spells (negatingValue_integral n)).text
  have hdepth : (negatingValue n).depth ≤ maxLevels := by
    rw [negatingValue_depth, maxLevels]
    omega
  exact (loadFile_text_iff hread htext hdepth).2
    (reads_file _ (negating_writes n) Source.plain_value)

/-- The request for the document on one line. -/
def negatingRequest : Request := { inputs := [negatingPath], compact := true }

theorem negating_text {n : Nat} (h : n ≤ 120) :
    negatingRequest.text (negatingFolder n) negatingPath =
      .ok (document {} (negating n)).compact := by
  have hload : loadFile (negatingFolder n) negatingPath negatingRequest.pointer = .ok (negating n) :=
    negating_loads h
  rw [Request.text, hload]
  rfl

theorem negating_expected (n : Nat) : (negatingFolder n).read (Golden.expectedPath {} "deep") =
    .ok (document {} (negating n)).compact := rfl

/-! ## Expected documents -/

/-- **Written documents as expectations.** If the document of a source file is written
    in the default style, on one line or indented, and expected of the same file, then
    the check succeeds if and only if not more than 127 arrays and objects of the
    document stand inside one another. -/
theorem Golden.check_written_iff {g : Golden} {r : Request} {fs : FileSystem}
    {name path text : String} {f : File} (hpointer : r.pointer = none)
    (hstyle : r.structuredOnly = false) (hload : loadFile fs path none = .ok f)
    (htext : r.text fs path = .ok text) (hexpected : fs.read (g.expectedPath name) = .ok text) :
    g.check fs name path = .ok () ↔ (document {} f).value.depth ≤ 127 := by
  have hdefault : r.style = {} := by rw [Request.style, hstyle]; rfl
  have hspells : SpellsText text.toList (document {} f).value := by
    rw [← hdefault]
    exact Request.text_spells (hpointer ▸ hload) htext
  have hmerged := merged_document {} f
  have hsame : (document {} f).merged.same (document {} f).merged = true := by
    rw [hmerged]
    exact Value.same_self (document_distinct {} f) (Document.value_integral _)
  have hcheck : g.check fs name path = (readText text).mapError (.badExpectation text) >>=
      fun expected => if (document {} f).merged.same expected then .ok () else
        .error (.differs (g.expectedPath name) (document {} f).merged) := by
    rw [Golden.check, Golden.actual, hload]
    show (fs.read (g.expectedPath name)).mapError _ >>= _ = _
    rw [hexpected]
    rfl
  rw [hcheck, bind_eq_ok]
  constructor
  · rintro ⟨u, hu, -⟩
    exact ((readText_spells_iff hspells).1 (mapError_eq_ok.1 hu)).1
  · intro hdepth
    refine ⟨(document {} f).merged, mapError_eq_ok.2 ?_, by rw [if_pos hsame]⟩
    exact (readText_spells_iff hspells).2 ⟨hdepth, rfl⟩

/-- The document of sixty negations passes, and that of one more fails: it is written,
    but not read again. -/
theorem negations_checked :
    Golden.check {} (negatingFolder 60) "deep" negatingPath = .ok () ∧
    loadFile (negatingFolder 61) negatingPath none = .ok (negating 61) ∧
    (∃ text, negatingRequest.text (negatingFolder 61) negatingPath = .ok text ∧
      (negatingFolder 61).read (Golden.expectedPath {} "deep") = .ok text) ∧
    Golden.check {} (negatingFolder 61) "deep" negatingPath ≠ .ok () := by
  have hchecked : ∀ n ≤ 120, Golden.check {} (negatingFolder n) "deep" negatingPath = .ok () ↔
      2 * n + 7 ≤ 127 := fun n h => by
    rw [Golden.check_written_iff (r := negatingRequest) rfl rfl (negating_loads h)
      (negating_text h) (negating_expected n), negating_depth]
  refine ⟨(hchecked 60 (by decide)).2 (by decide), negating_loads (by decide),
    ⟨_, negating_text (by decide), negating_expected 61⟩, fun hpass => ?_⟩
  exact absurd ((hchecked 61 (by decide)).1 hpass) (by decide)

end TreeDoc.Command
