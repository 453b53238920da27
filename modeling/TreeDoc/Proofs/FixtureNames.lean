/-
  The names of documents beside their sources.

  * `Text.intercalate_split`, `Path.stem_append`: a name without what follows its last
    point;
  * `Request.trimmed_append`, `Request.trimmed_eq_self_iff`: a name without any `.ast` at
    its end;
  * `FileSystem.Holds.of_read`, `makeFolders_eq_self`, `write_cases`: what a folder that
    is there already lets be read, made and written;
  * `Golden.sourcePath`: the path of the source file of a fixture;
  * `Golden.mem_fixtures`, `Golden.fixture_listed`: which files are fixtures, and under
    which names;
  * `document_beside_source`: where the document of a source file is written when it is
    written beside it, and when this is where it is expected.
-/
import Mathlib.Data.List.Basic
import TreeDoc.Command.Fixtures
import TreeDoc.Proofs.FolderPatterns
import TreeDoc.Proofs.WrittenFiles

/-! ## Names without an ending -/

namespace TreeDoc.Text

theorem intercalate_splitChars (mark : Char) (t : List Char) :
    [mark].intercalate (splitChars mark t) = t := by
  induction t with
  | nil => simp [splitChars]
  | cons c t ih =>
    obtain ⟨p, ps, hsplit⟩ := List.exists_cons_of_ne_nil (splitChars_ne_nil mark t)
    rw [hsplit] at ih
    rw [splitChars, hsplit]
    split_ifs with hc
    · rw [List.intercalate_cons_cons, ih, hc]
      rfl
    · rw [← ih]
      cases ps with
      | nil => simp
      | cons q qs => simp [List.intercalate_cons_cons]

/-- A text is put together again from its pieces. -/
theorem intercalate_split (mark : Char) (s : String) :
    (String.singleton mark).intercalate (split mark s) = s := by
  rw [← String.toList_inj, String.toList_intercalate, split, List.map_map]
  simp [Function.comp_def, intercalate_splitChars]

theorem split_append {mark : Char} {t : String} (h : mark ∉ t.toList) (s : String) :
    split mark (s ++ String.singleton mark ++ t) = split mark s ++ [t] := by
  have htoList : (s ++ String.singleton mark ++ t).toList = s.toList ++ mark :: t.toList := by
    simp [String.toList_append]
  rw [split, split, htoList, splitChars_append_cons, splitChars_eq_singleton h]
  simp

end TreeDoc.Text

namespace TreeDoc.Files.Path

/-- **A name without its ending.** -/
theorem stem_append {s t : String} (hs : s ≠ "") (ht : '.' ∉ t.toList) :
    stem (s ++ "." ++ t) = s := by
  have hsplit : Text.split '.' (s ++ "." ++ t) = Text.split '.' s ++ [t] := Text.split_append ht s
  have hself : ".".intercalate (Text.split '.' s) = s := Text.intercalate_split '.' s
  rw [stem, hsplit, List.reverse_append, List.reverse_singleton, List.singleton_append]
  split
  · next h => cases h
  · next h =>
    obtain ⟨-, hnil⟩ := List.cons.inj h
    rw [List.reverse_eq_nil_iff.1 hnil] at hself
    exact absurd hself.symm hs
  · next h =>
    obtain ⟨-, hempty⟩ := List.cons.inj h
    rw [List.reverse_eq_iff.1 hempty] at hself
    exact absurd hself.symm hs
  · next h =>
    obtain ⟨-, rfl⟩ := List.cons.inj h
    rw [List.reverse_reverse, hself]

end TreeDoc.Files.Path

namespace TreeDoc.Command.Request

theorem trimmed_go_of_not {beginning cs : List Char} (h : ¬beginning <+: cs) (n : Nat) :
    trimmed.go beginning n cs = cs := by
  cases n with
  | zero => rfl
  | succ n => rw [trimmed.go, if_neg (by simpa using h)]

theorem trimmed_go_append (beginning cs : List Char) (n : Nat) :
    trimmed.go beginning (n + 1) (beginning ++ cs) = trimmed.go beginning n cs := by
  rw [trimmed.go, if_pos (by simp), List.drop_left]

/-- The bound does not matter if it is as long as the text. -/
theorem trimmed_go_bound {beginning : List Char} (hne : beginning ≠ []) {cs : List Char} {m n : Nat}
    (hm : cs.length ≤ m) (hn : cs.length ≤ n) :
    trimmed.go beginning m cs = trimmed.go beginning n cs := by
  induction m generalizing n cs with
  | zero =>
    obtain rfl : cs = [] := List.length_eq_zero_iff.1 (Nat.le_zero.1 hm)
    rw [trimmed_go_of_not (by simpa using hne), trimmed_go_of_not (by simpa using hne)]
  | succ m ih =>
    by_cases hbeginning : beginning <+: cs
    · obtain ⟨ds, rfl⟩ := hbeginning
      have hpos := List.length_pos_of_ne_nil hne
      rw [List.length_append] at hm hn
      obtain ⟨n, rfl⟩ : ∃ k, n = k + 1 := ⟨n - 1, by omega⟩
      rw [trimmed_go_append, trimmed_go_append]
      exact ih (by omega) (by omega)
    · rw [trimmed_go_of_not hbeginning, trimmed_go_of_not hbeginning]

/-- One more `.ast` at the end makes no difference. -/
theorem trimmed_append (cs : List Char) : trimmed (cs ++ ".ast".toList) = trimmed cs := by
  rw [trimmed, trimmed, List.reverse_append, List.length_append]
  rw [show cs.length + ".ast".toList.length = cs.length + 3 + 1 from rfl, trimmed_go_append,
    trimmed_go_bound (by simp) (by simp) (Nat.le_of_eq (List.length_reverse))]

/-- **A name is left alone** if and only if it does not end in `.ast`. -/
theorem trimmed_eq_self_iff {cs : List Char} : trimmed cs = cs ↔ ¬".ast".toList <:+ cs := by
  constructor
  · rintro hself ⟨ds, rfl⟩
    have hlength : (trimmed ds).length ≤ ds.length := by
      rw [trimmed, List.length_reverse]
      simpa using (trimmed_go_suffix _ ds.length ds.reverse).length_le
    rw [trimmed_append] at hself
    rw [hself, List.length_append] at hlength
    exact absurd hlength (by simp)
  · intro h
    rw [trimmed, trimmed_go_of_not (by rwa [List.reverse_prefix]), List.reverse_reverse]

end TreeDoc.Command.Request

/-! ## Folders that are there already -/

namespace TreeDoc.Files

open Decode (bind_eq_ok)

namespace Folder

variable {f : Folder} {start place next : Place} {es : Folder} {name : String}

/-- Empty pieces lead nowhere else. -/
theorem follow_filter {ps : List String} (h : f.follow place ps = .ok next) :
    f.follow place (ps.filter (· ≠ "")) = .ok next := by
  induction ps generalizing place with
  | nil => exact h
  | cons p ps ih =>
    obtain ⟨mid, hstep, hrest⟩ := bind_eq_ok.1 h
    by_cases hp : p = ""
    · subst hp
      obtain rfl := step_empty hstep
      simpa using ih hrest
    · rw [List.filter_cons_of_pos (by simpa using hp)]
      exact bind_eq_ok.2 ⟨mid, hstep, ih hrest⟩

/-- A step to a name leads to an entry of the folder. -/
theorem step_success (hname : name ≠ "" ∧ name ≠ "." ∧ name ≠ "..")
    (h : f.step place name = .ok next) :
    ∃ es, f.contents place = .ok es ∧ (Assoc.get? name es).isSome ∧ next = place ++ [name] := by
  obtain ⟨es, hes, hnext⟩ := bind_eq_ok.1 h
  rw [if_neg (by simp [hname.1, hname.2.1]), if_neg hname.2.2] at hnext
  cases hget : Assoc.get? name es with
  | none => simp [hget] at hnext
  | some e =>
    simp only [hget] at hnext
    exact ⟨es, hes, by simp [hget], (Except.ok.inj hnext).symm⟩

/-- A folder that is there is not made again. -/
theorem makeFolder_ne_ok {pieces : List String} (hpieces : ∀ p ∈ pieces, p ≠ "")
    (h : f.follow start pieces = .ok next) (g : Folder) : f.makeFolder start pieces ≠ .ok g := by
  intro hok
  obtain ⟨⟨es, place, name⟩, hlocate, hmake⟩ := bind_eq_ok.1 hok
  obtain ⟨before, rfl, hbefore, hes⟩ := locate_eq_ok.1 hlocate
  obtain ⟨mid, hmid, hlast⟩ := follow_append.1 h
  obtain rfl := Except.ok.inj (hbefore.symm.trans hmid)
  rw [follow_singleton] at hlast
  have hexists : name = "." ∨ name = ".." ∨ (Assoc.get? name es).isSome := by
    by_contra hnot
    obtain ⟨hpoint, hpoints, hnone⟩ : name ≠ "." ∧ name ≠ ".." ∧ ¬(Assoc.get? name es).isSome := by
      simpa only [not_or] using hnot
    obtain ⟨es', hes', hsome, -⟩ := step_success ⟨hpieces name (by simp), hpoint, hpoints⟩ hlast
    obtain rfl := Except.ok.inj (hes.symm.trans hes')
    exact hnone hsome
  simp only at hmake
  rw [if_pos hexists] at hmake
  cases hmake

theorem ensureFolder_eq_self {pieces : List String} (hpieces : ∀ p ∈ pieces, p ≠ "")
    (h : f.follow start pieces = .ok place) (hes : f.contents place = .ok es) :
    f.ensureFolder start pieces = .ok f := by
  have hfolder : f.hasFolder start pieces = true := by
    rw [hasFolder, h]
    simp only [hes]
    rfl
  rw [ensureFolder]
  cases hmake : f.makeFolder start pieces with
  | ok g => exact absurd hmake (makeFolder_ne_ok hpieces h g)
  | error e => simp only [hfolder, if_true]

end Folder

namespace FileSystem

variable {fs : FileSystem} {place : Place} {es : Folder} {dir name text : String}

/-- **What is read in a folder** is held by it. -/
theorem Holds.of_read (hslash : '/' ∉ name.toList) (hname : name ≠ "" ∧ name ≠ "." ∧ name ≠ "..")
    (h : fs.read (Path.join dir name) = .ok text) : fs.Holds dir name text := by
  obtain ⟨next, hnext, hfile⟩ := bind_eq_ok.1 h
  obtain ⟨-, hfollow⟩ := resolve_success hnext
  rw [start_join hslash, Path.pieces_join hslash] at hfollow
  obtain ⟨place, hplace, hlast⟩ := Folder.follow_append.1 hfollow
  rw [Folder.follow_singleton] at hlast
  obtain ⟨es, -, -, rfl⟩ := Folder.step_success hname hlast
  refine ⟨place, hplace, ?_⟩
  split at hfile
  · next hentry =>
    obtain rfl := Except.ok.inj hfile
    exact hentry
  all_goals cases hfile

theorem Holds.folder (h : fs.Holds dir name text) :
    ∃ place es, fs.Leads dir place ∧ fs.root.contents place = .ok es := by
  obtain ⟨place, hleads, hentry⟩ := h
  obtain ⟨es, hes, -⟩ := Folder.at?_concat.1 hentry
  exact ⟨place, es, hleads, Folder.contents_eq_ok.2 hes⟩

/-- **Making a folder that is there** changes nothing. -/
theorem makeFolders_eq_self (h : fs.Leads dir place) (hes : fs.root.contents place = .ok es) :
    fs.makeFolders dir = .ok fs := by
  have hpieces : fs.root.follow (fs.start dir) ((Path.pieces dir).filter (· ≠ "")) = .ok place := by
    rw [← Path.filter_folderPieces]
    exact Folder.follow_filter h
  rw [makeFolders]
  split_ifs with hempty
  · rfl
  · rw [Path.ancestors, Folder.makeChain]
    simp only [Folder.ensureFolder_eq_self (by simp) hpieces hes]
    rfl

/-- **Writing into a folder that is there** fails only where a folder has the name. -/
theorem write_cases (text : String) (hslash : '/' ∉ name.toList)
    (hname : name ≠ "" ∧ name ≠ "." ∧ name ≠ "..") (h : fs.Leads dir place)
    (hes : fs.root.contents place = .ok es) :
    (∃ f, Assoc.get? name es = some (.folder f)) ∧
        fs.write (Path.join dir name) text = .error .isFolder ∨
      ∃ fs', fs.write (Path.join dir name) text = .ok fs' := by
  have hlocate : fs.root.locate (fs.start (Path.join dir name))
      (Path.pieces (Path.join dir name)) = .ok (es, place, name) := by
    rw [start_join hslash]
    exact Folder.locate_eq_ok.2 ⟨_, Path.pieces_join hslash, h, hes⟩
  rw [write, if_neg (Path.join_ne_empty hslash hname.1), hlocate]
  by_cases hfolder : ∃ f, Assoc.get? name es = some (.folder f)
  · obtain ⟨f, hget⟩ := hfolder
    exact .inl ⟨⟨f, hget⟩, by simp [hname, hget, bind, Except.bind]⟩
  · refine .inr ⟨{ fs with
      root := fs.root.updateAt (fun _ => .file (some text)) (place ++ [name]) }, ?_⟩
    simp only [not_exists] at hfolder
    simp [hname, bind, Except.bind, pure, Except.pure]

end FileSystem

end TreeDoc.Files

/-! ## Documents saved beside their sources -/

namespace TreeDoc.Command

open Files

namespace Request

variable {r : Request} {fs : FileSystem} {o : Outcome}
variable {path dir text other content : String}

theorem sequential_singleton (h : r.text fs path = .ok text) :
    r.sequential fs [path] = r.save { system := fs } path text := by
  have hresults : r.results fs [path] = [(path, .ok text)] := by
    rw [results, List.map_singleton, h]
  rw [sequential, hresults]
  by_cases hsave : (r.save { system := fs } path text).failure = none
  · rw [saveAll_ok hsave, saveAll, hsave]
    rfl
  · rw [saveAll_refused hsave, if_pos (Option.isSome_iff_ne_none.2 hsave)]

/-- **A document that is saved in a folder that is there** is read again, unless a folder
    has its name. -/
theorem save_existing (path text : String) (hdir : r.outDir = some dir)
    (ho : o.system.root.Ordered) (hnone : o.failure = none)
    (hholds : o.system.Holds dir other content) :
    (r.save o path text).failure = none ∧
        (r.save o path text).system.read (Path.join dir (targetName path)) = .ok text ∨
      (r.save o path text).failure =
          some (.notWritten (Path.join dir (targetName path)) .isFolder) ∧
        o.system.read (Path.join dir (targetName path)) = .error .isFolder := by
  obtain ⟨hslash, hname⟩ := targetName_plain path
  obtain ⟨place, es, hleads, hes⟩ := hholds.folder
  have hmade := FileSystem.makeFolders_eq_self hleads hes
  rcases FileSystem.write_cases text hslash hname hleads hes with
    ⟨⟨f, hget⟩, hwrite⟩ | ⟨system, hwrite⟩
  · right
    have hstep := Folder.step_entry hname hes (by rw [hget]; rfl)
    have hresolve := hleads.resolve_join hslash (Path.join_ne_empty hslash hname.1) hstep
    have hentry : o.system.root.at? (place ++ [targetName path]) = some (.folder f) :=
      Folder.at?_concat.2 ⟨es, Folder.contents_eq_ok.1 hes, hget⟩
    refine ⟨by simp only [save, hdir, hmade, hwrite], ?_⟩
    simp [FileSystem.read, hresolve, hentry, bind, Except.bind]
  · left
    have hsave : (r.save o path text).failure = none := by
      simp only [save, hdir, hmade, hwrite, hnone]
    obtain ⟨-, hself, -⟩ := save_holds hdir ho hsave
    exact ⟨hsave, hself.read hslash hname⟩

end Request

theorem isPlain_of_not_isPattern {s : String} (h : isPattern s = false) {c : Char}
    (hc : c ∈ s.toList) : Glob.IsPlain c := by
  rw [isPattern, List.any_eq_false] at h
  have hnone := h c hc
  simp only [Bool.or_eq_true, decide_eq_true_eq, not_or] at hnone
  obtain ⟨⟨⟨hstar, hmark⟩, hbracket⟩, -⟩ := hnone
  exact ⟨hstar, hmark, hbracket⟩

namespace Golden

variable {g : Golden} {fs : FileSystem} {path name text : String}

/-- The path of the source file of a fixture. -/
def sourcePath (g : Golden) (name : String) : String := Path.join g.dir (name ++ sourceSuffix)

theorem source_plain (h : '/' ∉ name.toList) :
    '/' ∉ (name ++ sourceSuffix).toList ∧ name ++ sourceSuffix ≠ "" ∧ name ++ sourceSuffix ≠ "." ∧
      name ++ sourceSuffix ≠ ".." :=
  Path.plain_append h (by decide) (by decide)

/-- **The name of the document** of a source file. -/
theorem targetName_sourcePath (g : Golden) (h : '/' ∉ name.toList) :
    Request.targetName (g.sourcePath name) =
      String.ofList (Request.trimmed name.toList) ++ ".model.json" := by
  obtain ⟨hslash, hplain⟩ := source_plain h
  have hname : name ++ sourceSuffix = name ++ ".ast" ++ "." ++ "json" := by
    rw [String.append_assoc, String.append_assoc]
    rfl
  have hstem : Path.stem (name ++ sourceSuffix) = name ++ ".ast" := by
    rw [hname, Path.stem_append (by simp) (by decide)]
  rw [Request.targetName, Path.fileStem?, sourcePath, Path.fileName?_join hslash hplain,
    Option.map_some, hstem]
  simp only [String.toList_append, Request.trimmed_append]

/-- **The name of a fixture** is that of its source file without the ending. -/
theorem fixtureName?_eq (h : Path.fileName? path = some (name ++ sourceSuffix)) :
    fixtureName? path = some name := by
  rw [fixtureName?, h]
  simp [String.toList_append]

/-- Without wildcards in the path of the folder, the fixtures are searched for in it. -/
theorem fixtures_eq (g : Golden) (fs : FileSystem) (hdir : ∀ c ∈ g.dir.toList, Glob.IsPlain c) :
    g.fixtures fs = .ok (sorted
      ((Glob.search fs (Glob.endingPattern g.dir sourceSuffix)).filterMap fun path =>
        (fixtureName? path).bind fun name =>
          if g.accepts name then some (name, path) else none)) := by
  have hparse : Glob.Pattern.parse (Path.join g.dir ("*" ++ sourceSuffix)) =
      .ok (Glob.endingPattern g.dir sourceSuffix) :=
    Glob.parse_join hdir (by simp [sourceSuffix, Glob.IsPlain]) (by decide)
  rw [fixtures, hparse]

/-- The fixtures of a folder are the files found there that have a name which is
    wanted. -/
theorem mem_fixtures (g : Golden) (fs : FileSystem) (hdir : ∀ c ∈ g.dir.toList, Glob.IsPlain c) :
    ∃ fixtures, g.fixtures fs = .ok fixtures ∧ ∀ name path, (name, path) ∈ fixtures ↔
      path ∈ Glob.search fs (Glob.endingPattern g.dir sourceSuffix) ∧
        fixtureName? path = some name ∧ g.accepts name = true := by
  rw [fixtures_eq g fs hdir]
  refine ⟨_, rfl, fun name path => ?_⟩
  simp only [sorted, List.mem_mergeSort, List.mem_filterMap, Option.bind_eq_some_iff,
    Option.ite_none_right_eq_some, Option.some.injEq, Prod.mk.injEq]
  constructor
  · rintro ⟨_, hfound, _, hname, hwanted, rfl, rfl⟩
    exact ⟨hfound, hname, hwanted⟩
  · rintro ⟨hfound, hname, hwanted⟩
    exact ⟨path, hfound, name, hname, hwanted, rfl, rfl⟩

/-- **Which source files are fixtures.** A source file that can be read is listed under
    its name if this is wanted, unless the path of the folder is dangling. -/
theorem fixture_listed (hslash : '/' ∉ name.toList) (hplain : isPattern (g.sourcePath name) = false)
    (hread : fs.read (g.sourcePath name) = .ok text) :
    ∃ fixtures, g.fixtures fs = .ok fixtures ∧
      ((∃ path, (name, path) ∈ fixtures ∧ fs.read path = .ok text) ↔
        g.accepts name = true ∧ ¬Glob.Dangling g.dir) := by
  obtain ⟨hsource, hname⟩ := source_plain hslash
  obtain ⟨place, hleads, hentry⟩ := FileSystem.Holds.of_read hsource hname hread
  obtain ⟨fixtures, hfixtures, hmem⟩ := g.mem_fixtures fs fun c hc =>
    isPlain_of_not_isPattern hplain (Path.mem_join hsource (.inl hc))
  refine ⟨fixtures, hfixtures, ?_, ?_⟩
  · rintro ⟨path, hpath, -⟩
    obtain ⟨hfound, -, hwanted⟩ := (hmem name path).1 hpath
    refine ⟨hwanted, fun hdangling => ?_⟩
    rw [Glob.search_dangling _ fs hdangling] at hfound
    cases hfound
  · rintro ⟨hwanted, hdangling⟩
    obtain ⟨es, hes, hget⟩ := Folder.at?_concat.1 hentry
    obtain ⟨s, hs, rfl, hsearch⟩ := Glob.mem_search sourceSuffix hdangling hleads
      (Folder.contents_eq_ok.2 hes)
    have hfound : s.pathTo (name ++ sourceSuffix) ∈
        Glob.search fs (Glob.endingPattern g.dir sourceSuffix) :=
      (hsearch _).2 ⟨_, Assoc.mem_of_get? hget, by simp [String.toList_append], rfl⟩
    have hfile : fixtureName? (s.pathTo (name ++ sourceSuffix)) = some name := by
      obtain ⟨dir, hjoin⟩ := s.pathTo_eq_join (name ++ sourceSuffix)
      exact fixtureName?_eq (by rw [hjoin, Path.fileName?_join hsource hname])
    exact ⟨_, (hmem name _).2 ⟨hfound, hfile, hwanted⟩, hs.read_pathTo hsource hname hentry⟩

/-- The path at which a document is written is the one at which it is expected, unless the
    name of the fixture ends in `.ast`. -/
theorem expectedPath_trimmed_iff (h : '/' ∉ name.toList) :
    g.expectedPath (String.ofList (Request.trimmed name.toList)) = g.expectedPath name ↔
      ¬".ast".toList <:+ name.toList := by
  have hdocument : ∀ {s : String}, '/' ∉ s.toList → '/' ∉ (s ++ ".model.json").toList :=
    fun hs => (Path.plain_append hs (by decide) (by decide)).1
  have htrimmed : '/' ∉ (String.ofList (Request.trimmed name.toList)).toList := by
    rw [String.toList_ofList]
    exact fun hmem => h (Request.mem_of_mem_trimmed hmem)
  rw [← Request.trimmed_eq_self_iff]
  constructor
  · intro hjoin
    have hname := Path.join_injective (hdocument htrimmed) (hdocument h) hjoin
    simpa [String.toList_append] using congrArg String.toList hname
  · intro hself
    rw [hself, String.ofList_toList]

end Golden

theorem Request.read_of_text {r : Request} {fs : FileSystem} {path text : String}
    (h : r.text fs path = .ok text) : ∃ content, fs.read path = .ok content := by
  obtain ⟨f, hload, -⟩ := Decode.bind_eq_ok.1 h
  obtain ⟨content, hread, -⟩ := Decode.bind_eq_ok.1 hload
  exact ⟨content, Decode.mapError_eq_ok.1 hread⟩

/-- **A document beside its source.** A run that converts one source file, and writes to
    the folder in which it is, leaves the document there unless a folder has its name. This
    name is that of the source without any `.ast` at its end, so it is the one under which
    the document of the fixture is expected if and only if the name of the fixture does not
    end so itself. And the source file is listed as a fixture under its name if this is
    wanted, unless the path of the folder is dangling. -/
theorem document_beside_source {r : Request} {fs : FileSystem} {o : Outcome} {text : String}
    (g : Golden) (name : String) (hordered : fs.root.Ordered) (hslash : '/' ∉ name.toList)
    (hplain : isPattern (g.sourcePath name) = false) (hinputs : r.inputs = [g.sourcePath name])
    (hdir : r.outDir = some g.dir) (htext : r.text fs (g.sourcePath name) = .ok text)
    (hrun : Runs r fs o) :
    let written := g.expectedPath (String.ofList (Request.trimmed name.toList))
    (o.failure = none ∧ o.system.read written = .ok text ∨
      o.failure = some (.notWritten written .isFolder) ∧ fs.read written = .error .isFolder) ∧
    (written = g.expectedPath name ↔ ¬".ast".toList <:+ name.toList) ∧
    ∃ fixtures, g.fixtures fs = .ok fixtures ∧
      ((∃ path, (name, path) ∈ fixtures ∧ fs.read path = fs.read (g.sourcePath name)) ↔
        g.accepts name = true ∧ ¬Glob.Dangling g.dir) := by
  obtain ⟨content, hread⟩ := Request.read_of_text htext
  obtain ⟨hsource, hname⟩ := Golden.source_plain hslash
  have hholds := FileSystem.Holds.of_read hsource hname hread
  have hpaths : resolveInputs fs r.inputs = .ok [g.sourcePath name] := by
    rw [hinputs, resolveInputs, resolveInput, hplain]
    rfl
  have ho : o = r.save { system := fs } (g.sourcePath name) text := by
    rw [runs_iff.1 hrun, Request.convert_eq hpaths, Request.sequential_singleton htext]
  have hsave := Request.save_existing (o := { system := fs }) (g.sourcePath name) text hdir
    hordered rfl hholds
  rw [← ho, Golden.targetName_sourcePath g hslash] at hsave
  rw [hread]
  exact ⟨hsave, Golden.expectedPath_trimmed_iff hslash, Golden.fixture_listed hslash hplain hread⟩

/-- A folder with a source file whose fixture has a name that ends in `.ast`. -/
def astFolder : FileSystem := .ofFolder
  [("d", .folder [("x.ast.ast.json", .file (some (packageValue "a").compact))])]

/-- The request to write the document beside the source. -/
def astRequest (dir : String) : Request :=
  { inputs := [Path.join dir "x.ast.ast.json"], outDir := some dir, compact := true }

/-- The document is written, the fixture is listed, and its document is expected
    elsewhere: below the working folder, at a path from the root, and at one from above the
    working folder. -/
theorem astRequest_runs :
    astFolder.root.Ordered ∧ ∀ dir ∈ ["d", "/work/d", "../work/d"],
      isPattern (Path.join dir "x.ast.ast.json") = false ∧
      (astRequest dir).text astFolder (Path.join dir "x.ast.ast.json") = .ok (packageText "a") ∧
      (∃ o, Runs (astRequest dir) astFolder o) ∧
      (∀ o, Runs (astRequest dir) astFolder o →
        o.failure = none ∧
          o.system.read (Path.join dir "x.model.json") = .ok (packageText "a")) ∧
      ({ dir } : Golden).expectedPath "x.ast" = Path.join dir "x.ast.model.json" ∧
      ∃ fixtures path, ({ dir } : Golden).fixtures astFolder = .ok fixtures ∧
        ("x.ast", path) ∈ fixtures ∧
        astFolder.read path = astFolder.read (Path.join dir "x.ast.ast.json") := by
  have hordered : astFolder.root.Ordered :=
    ⟨by simp, ⟨by simp, ⟨by simp, trivial, trivial⟩, trivial⟩, trivial⟩
  refine ⟨hordered, fun dir hdir => ?_⟩
  obtain ⟨hpattern, hread, hmissing, hdangling⟩ :
      isPattern (Path.join dir "x.ast.ast.json") = false ∧
      astFolder.read (Path.join dir "x.ast.ast.json") = .ok (packageValue "a").compact ∧
      astFolder.read (Path.join dir "x.model.json") = .error .notFound ∧ ¬Glob.Dangling dir := by
    simp only [List.mem_cons, List.not_mem_nil, or_false] at hdir
    rcases hdir with rfl | rfl | rfl
    all_goals exact ⟨by decide, rfl, rfl, by decide⟩
  have htext : (astRequest dir).text astFolder (Path.join dir "x.ast.ast.json") =
      .ok (packageText "a") := packageFile_text hread rfl rfl rfl
  have hspec := fun o ho => document_beside_source (o := o) { dir } "x.ast" hordered
    (by decide) hpattern rfl rfl htext ho
  have hwritten : ({ dir } : Golden).expectedPath (String.ofList (Request.trimmed "x.ast".toList)) =
      Path.join dir "x.model.json" := congrArg (Path.join dir) (by decide)
  obtain ⟨o, ho⟩ := exists_ended (astRequest dir) ((astRequest dir).start astFolder)
  obtain ⟨-, -, fixtures, hfixtures, hlisted⟩ := hspec o ho
  obtain ⟨path, hpath, hsame⟩ := hlisted.2 ⟨rfl, hdangling⟩
  refine ⟨hpattern, htext, ⟨o, ho⟩, fun o ho => ?_, rfl, fixtures, path, hfixtures, hpath, hsame⟩
  obtain ⟨hsaved | ⟨-, hfolder⟩, -⟩ := hspec o ho
  · rwa [hwritten] at hsaved
  · rw [hwritten, hmissing] at hfolder
    cases hfolder

end TreeDoc.Command
