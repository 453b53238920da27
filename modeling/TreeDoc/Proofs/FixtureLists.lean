/-
  The fixtures of a folder.

  The path of the folder is part of a pattern, so a folder whose path has no wildcards is
  the one that is looked through.

  * `Golden.precedes_iff`, `Golden.sorted_ascending`: fixtures with names of their own stand
    in ascending order of these;
  * `Golden.fixtureName?_pathTo`: the names under which entries are listed;
  * `Golden.found`: the fixtures as they are found, which have names of their own
    (`Golden.found_nodup`);
  * `Golden.fixtures_exact`: the fixtures of a folder are its source files whose names are
    wanted, each once and in order.
-/
import TreeDoc.Proofs.FixtureNames

namespace TreeDoc.Command.Golden

open Files

/-! ## Order -/

theorem precedes_iff {as bs : List String} : precedes as bs = true ↔ ¬bs < as := by
  induction as generalizing bs with
  | nil => simp [precedes]
  | cons a as ih =>
    cases bs with
    | nil => simp [precedes]
    | cons b bs =>
      rw [precedes, List.cons_lt_cons_iff]
      split_ifs with heq
      · simp [heq, ih]
      · simp only [decide_eq_true_eq, Ne.symm heq, false_and, or_false, not_lt]
        exact ⟨le_of_lt, fun hle => lt_of_le_of_ne hle heq⟩

/-- **Fixtures with names of their own** stand in ascending order of them. -/
theorem sorted_ascending {fixtures : List (String × String)}
    (h : (fixtures.map Prod.fst).Nodup) : (sorted fixtures).Pairwise fun a b => a.1 < b.1 := by
  have hperm : (sorted fixtures).Perm fixtures := List.mergeSort_perm _ _
  have hnodup : ((sorted fixtures).map Prod.fst).Nodup := (hperm.map Prod.fst).nodup_iff.2 h
  have hsorted : (sorted fixtures).Pairwise fun a b =>
      precedes (a.1 :: Path.components a.2) (b.1 :: Path.components b.2) = true := by
    refine List.pairwise_mergeSort (fun a b c hab hbc => ?_) (fun a b => ?_) fixtures
    · rw [precedes_iff, not_lt] at *
      exact hab.trans hbc
    · rw [Bool.or_eq_true, precedes_iff, precedes_iff, not_lt, not_lt]
      exact le_total _ _
  -- names that are not the same decide, so the paths behind them do not
  refine (hsorted.and (List.pairwise_map.1 hnodup)).imp fun ⟨hle, hne⟩ => ?_
  rw [precedes_iff, List.cons_lt_cons_iff, not_or, not_lt] at hle
  exact lt_of_le_of_ne hle.1 hne

/-! ## Fixtures as they are found -/

variable {g : Golden} {fs : FileSystem} {s : Glob.Spot} {es : Folder} {name path : String}

/-- **An entry is listed** under its name without the ending, if it has the ending. -/
theorem fixtureName?_pathTo {entry : String} (hslash : '/' ∉ entry.toList)
    (hending : sourceSuffix.toList <:+ entry.toList) :
    fixtureName? (s.pathTo entry) = some name ↔ entry = name ++ sourceSuffix := by
  obtain ⟨cs, hcs⟩ := hending
  obtain rfl : entry = String.ofList cs ++ sourceSuffix := by
    rw [← String.toList_inj, String.toList_append, String.toList_ofList, hcs]
  have hname : '/' ∉ (String.ofList cs).toList := fun hmem =>
    hslash (by rw [String.toList_append]; exact List.mem_append_left _ hmem)
  obtain ⟨dir, hjoin⟩ := s.pathTo_eq_join (String.ofList cs ++ sourceSuffix)
  have hfile : fixtureName? (s.pathTo (String.ofList cs ++ sourceSuffix)) =
      some (String.ofList cs) :=
    fixtureName?_eq (by rw [hjoin, Path.fileName?_join hslash (source_plain hname).2])
  rw [hfile, Option.some_inj]
  refine ⟨fun heq => heq ▸ rfl, fun heq => ?_⟩
  simpa [← String.toList_inj, String.toList_append] using heq

/-- The fixtures among the entries of the folder at a spot, as they are found. -/
def found (g : Golden) (s : Glob.Spot) (es : Folder) : List (String × String) :=
  ((es.filter fun x => sourceSuffix.toList.isSuffixOf x.1.toList).map fun x =>
    s.pathTo x.1).filterMap fun path => (fixtureName? path).bind fun name =>
      if g.accepts name then some (name, path) else none

theorem mem_found (hslash : ∀ x ∈ es, '/' ∉ x.1.toList) :
    (name, path) ∈ g.found s es ↔ name ++ sourceSuffix ∈ es.map Prod.fst ∧
      g.accepts name = true ∧ path = s.pathTo (name ++ sourceSuffix) := by
  simp only [found, List.mem_filterMap, List.mem_map, List.mem_filter, List.isSuffixOf_iff_suffix,
    Option.bind_eq_some_iff, Option.ite_none_right_eq_some, Option.some.injEq, Prod.mk.injEq]
  constructor
  · rintro ⟨_, ⟨x, ⟨hx, hending⟩, rfl⟩, _, hname, hwanted, rfl, rfl⟩
    have hentry := (fixtureName?_pathTo (hslash x hx) hending).1 hname
    exact ⟨⟨x, hx, hentry⟩, hwanted, by rw [hentry]⟩
  · rintro ⟨⟨x, hx, hentry⟩, hwanted, rfl⟩
    have hending : sourceSuffix.toList <:+ x.1.toList := by simp [hentry, String.toList_append]
    refine ⟨s.pathTo x.1, ⟨x, ⟨hx, hending⟩, rfl⟩, name, ?_, hwanted, rfl, by rw [hentry]⟩
    exact (fixtureName?_pathTo (hslash x hx) hending).2 hentry

/-- **A name is found once**, because no two entries of a folder have one name. -/
theorem found_nodup (hnodup : (es.map Prod.fst).Nodup) (hslash : ∀ x ∈ es, '/' ∉ x.1.toList) :
    ((g.found s es).map Prod.fst).Nodup := by
  have hnames : ∀ x ∈ es, sourceSuffix.toList.isSuffixOf x.1.toList = true → ∀ a,
      ((fixtureName? (s.pathTo x.1)).bind fun name =>
        if g.accepts name then some (name, s.pathTo x.1) else none) =
          some a → x.1 = a.1 ++ sourceSuffix := by
    intro x hx hending a ha
    obtain ⟨name, hname, ha⟩ := Option.bind_eq_some_iff.1 ha
    obtain ⟨-, ha⟩ := Option.ite_none_right_eq_some.1 ha
    obtain rfl := Option.some.inj ha
    exact (fixtureName?_pathTo (hslash x hx) (List.isSuffixOf_iff_suffix.1 hending)).1 hname
  rw [found, List.Nodup, List.pairwise_map, List.pairwise_filterMap, List.pairwise_map,
    List.pairwise_filter]
  refine (List.pairwise_map.1 hnodup).imp_of_mem fun {x y} hx hy hne hx' hy' a ha b hb heq => ?_
  exact hne ((hnames x hx hx' a ha).trans (heq ▸ (hnames y hy hy' b hb).symm))

/-! ## The fixtures of a folder -/

/-- **The fixtures of a folder.** Where the path of a folder has no wildcards, the listed
    names are the wanted ones of its source files, unless the path is dangling, and then
    there are none. Each is listed once, in ascending order, and with a path that leads to
    its source file. -/
theorem fixtures_exact {place : Place} (hplain : ∀ c ∈ g.dir.toList, Glob.IsPlain c)
    (hdir : fs.resolve g.dir = .ok place) (hes : fs.root.contents place = .ok es)
    (hnodup : (es.map Prod.fst).Nodup) (hslash : ∀ x ∈ es, '/' ∉ x.1.toList) :
    ∃ fixtures, g.fixtures fs = .ok fixtures ∧ fixtures.Pairwise (fun a b => a.1 < b.1) ∧
      (∀ name path, (name, path) ∈ fixtures →
        fs.resolve path = .ok (place ++ [name ++ sourceSuffix]) ∧
          Path.fileName? path = some (name ++ sourceSuffix)) ∧
      ∀ name, (∃ path, (name, path) ∈ fixtures) ↔
        name ++ sourceSuffix ∈ es.map Prod.fst ∧ g.accepts name = true ∧
          ¬Glob.Dangling g.dir := by
  rw [fixtures_eq g fs hplain]
  by_cases hdangling : Glob.Dangling g.dir
  · rw [Glob.search_dangling _ fs hdangling]
    exact ⟨[], by simp [sorted], .nil, by simp, by simp [hdangling]⟩
  obtain ⟨s, hs, rfl, hsearch⟩ :=
    Glob.search_eq sourceSuffix hdangling (FileSystem.Leads.of_resolve hdir) hes
  have hmem : ∀ name path, (name, path) ∈ sorted (g.found s es) ↔
      name ++ sourceSuffix ∈ es.map Prod.fst ∧ g.accepts name = true ∧
        path = s.pathTo (name ++ sourceSuffix) := fun name path => by
    rw [sorted, List.mem_mergeSort, mem_found hslash]
  rw [hsearch]
  refine ⟨sorted (g.found s es), rfl, sorted_ascending (found_nodup hnodup hslash), ?_, ?_⟩
  · intro name path hfixture
    obtain ⟨hentry, -, rfl⟩ := (hmem name path).1 hfixture
    obtain ⟨x, hx, hx'⟩ := List.mem_map.1 hentry
    have hname : '/' ∉ name.toList := fun hc =>
      hslash x hx (by rw [hx', String.toList_append]; exact List.mem_append_left _ hc)
    obtain ⟨hsource, hfile⟩ := source_plain hname
    have hget : (Assoc.get? (name ++ sourceSuffix) es).isSome := by
      rw [← hx', Assoc.get?_of_mem hnodup hx]
      rfl
    obtain ⟨dir, hjoin⟩ := s.pathTo_eq_join (name ++ sourceSuffix)
    exact ⟨hs.resolve_pathTo hsource hfile (Folder.step_entry hfile hes hget),
      by rw [hjoin, Path.fileName?_join hsource hfile]⟩
  · intro name
    simp only [hmem, hdangling, not_false_eq_true, and_true, exists_and_left, exists_eq]

/-- A folder with wildcards in its name, and one without. Both hold a source file. -/
def bracketFolder : FileSystem := .ofFolder
  [("a[b]", .folder [("x.ast.json", .file (some "\x7b\x7d"))]),
    ("d", .folder [("x.ast.json", .file (some "\x7b\x7d")), ("x.model.json", .file (some ""))])]

/-- The pattern into which the name with brackets is put. -/
def bracketPattern : Glob.Pattern where
  components := [.wild [.char 'a', .oneOf [⟨'b', 'b'⟩]],
    .wild (.anySequence :: sourceSuffix.toList.map .char)]
  onlyFolders := false
  absolute := false

theorem parse_bracketPattern :
    Glob.Pattern.parse (Path.join "a[b]" ("*" ++ sourceSuffix)) = .ok bracketPattern := by
  have hjoin : Path.join "a[b]" ("*" ++ sourceSuffix) = "a[b]/*.ast.json" := by decide
  have htokens : Glob.tokens 0 none "a[b]/*.ast.json".toList =
      .ok (.char 'a' :: .oneOf [⟨'b', 'b'⟩] :: .char '/' :: .anySequence ::
        ".ast.json".toList.map .char) := by cbv
  have htexts : Glob.componentTexts "a[b]/*.ast.json" = ["a[b]", "*" ++ sourceSuffix] := by decide
  have hbracket : Glob.Component.parse "a[b]" = .ok (.wild [.char 'a', .oneOf [⟨'b', 'b'⟩]]) := by
    cbv
  have hstar : Glob.Component.parse ("*" ++ sourceSuffix) =
      .ok (.wild (.anySequence :: sourceSuffix.toList.map .char)) :=
    Glob.parse_star (by simp [sourceSuffix, Glob.IsPlain])
  rw [hjoin, Glob.Pattern.parse, htokens, htexts, Glob.parseAll, hbracket, Glob.parseAll, hstar]
  rfl

/-- No entry has a name that the brackets stand for. -/
theorem search_bracketPattern : Glob.search bracketFolder bracketPattern = [] := by
  have hfolder : Glob.folderAt bracketFolder.root ⟨".", ["work"]⟩ =
      some bracketFolder.workingFolder := rfl
  have hbracket : Glob.tokensMatch [.char 'a', .oneOf [⟨'b', 'b'⟩]] "a[b]".toList = false := by cbv
  have hplain : Glob.tokensMatch [.char 'a', .oneOf [⟨'b', 'b'⟩]] "d".toList = false := by cbv
  show Glob.find bracketFolder.root false bracketPattern.components ⟨".", ["work"]⟩ = _
  rw [bracketPattern, Glob.find, hfolder]
  show ([] ++ List.flatMap _ [("a[b]", _), ("d", _)] : List String) = _
  simp only [List.flatMap_cons, List.flatMap_nil, hbracket, hplain]
  rfl

/-- The source file is listed if its folder is named plainly, also at a path from the root
    and at one from above the working folder. In brackets it is not, nor behind an empty
    piece. -/
theorem bracketFolder_fixtures :
    (∀ dir ∈ ["d", "/work/d", "../work/d"],
      ∃ fixtures path, ({ dir } : Golden).fixtures bracketFolder = .ok fixtures ∧
        ("x", path) ∈ fixtures ∧ bracketFolder.resolve path = .ok ["work", "d", "x.ast.json"]) ∧
    bracketFolder.resolve "a[b]" = .ok ["work", "a[b]"] ∧
    ({ dir := "a[b]" } : Golden).fixtures bracketFolder = .ok [] ∧
    bracketFolder.resolve ".//d" = .ok ["work", "d"] ∧
    ({ dir := ".//d" } : Golden).fixtures bracketFolder = .ok [] := by
  refine ⟨fun dir hdir => ?_, rfl, ?_, rfl, ?_⟩
  · obtain ⟨hplain, hresolve, hdangling⟩ : (∀ c ∈ dir.toList, Glob.IsPlain c) ∧
        bracketFolder.resolve dir = .ok ["work", "d"] ∧ ¬Glob.Dangling dir := by
      simp only [List.mem_cons, List.not_mem_nil, or_false] at hdir
      rcases hdir with rfl | rfl | rfl
      all_goals exact ⟨by simp [Glob.IsPlain], rfl, by decide⟩
    obtain ⟨listed, hlisted, -, hpath, hname⟩ :=
      fixtures_exact (g := { dir }) hplain hresolve rfl (by decide) (by decide)
    obtain ⟨path, hmem⟩ := (hname "x").2 ⟨by decide, rfl, hdangling⟩
    exact ⟨listed, path, hlisted, hmem, (hpath _ _ hmem).1⟩
  · simp only [fixtures, parse_bracketPattern, search_bracketPattern]
    simp [sorted]
  · rw [fixtures_eq _ _ (by simp [Glob.IsPlain]), Glob.search_dangling _ _ (by decide)]
    simp [sorted]

end TreeDoc.Command.Golden
