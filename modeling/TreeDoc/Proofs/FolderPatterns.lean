/-
  Patterns that ask for the files of one folder.

  * `tokens_star`, `parse_join`: the path of a folder without wildcards, and in it a
    star and an ending, read as a pattern;
  * `tokensMatch_star`: the names that a star and an ending stand for;
  * `Path.Names`, `Spot.Leads`: a path names something, and that of a spot leads to its
    place;
  * `find_names`: names without wildcards lead where the path does;
  * `Dangling`: a path goes from points to an empty piece;
  * `search_eq`, `mem_search`: such a pattern finds the entries of the folder that have
    the ending, each once, unless the path of the folder is dangling, and then it finds
    nothing (`search_dangling`).
-/
import Mathlib.Data.List.Basic
import TreeDoc.Files.Search
import TreeDoc.Proofs.WrittenFiles

namespace TreeDoc.Files

open Decode (bind_eq_ok)

/-! ## Paths of entries -/

namespace Path

variable {dir name : String}

/-- The path of an entry is its name behind a text that depends on the folder only. -/
theorem exists_join (dir : String) :
    ∃ start : String, dir.toList ⊆ start.toList ∧ start.toList ⊆ '/' :: dir.toList ∧
      ∀ name : String, '/' ∉ name.toList → join dir name = start ++ name := by
  by_cases hempty : dir = ""
  · refine ⟨"", by simp [hempty], by simp, fun name h => ?_⟩
    rw [join, if_pos (by simp [hempty]), String.empty_append]
  by_cases hslash : dir.toList.getLast? = some '/'
  · refine ⟨dir, List.Subset.refl _, List.subset_cons_self _ _, fun name h => ?_⟩
    rw [join, if_neg (by simp [hempty, isAbsolute_eq_false h]), if_pos hslash]
  · refine ⟨dir ++ "/", by simp [String.toList_append], ?_, fun name h => ?_⟩
    · simp [String.toList_append]
    · rw [join, if_neg (by simp [hempty, isAbsolute_eq_false h]), if_neg hslash]

theorem mem_join {c : Char} (h : '/' ∉ name.toList) (hc : c ∈ dir.toList ∨ c ∈ name.toList) :
    c ∈ (join dir name).toList := by
  obtain ⟨start, hdir, -, hjoin⟩ := exists_join dir
  rw [hjoin name h, String.toList_append, List.mem_append]
  exact hc.imp_left fun hc => hdir hc

/-- The name of an entry is one piece of its path. -/
theorem join_injective {other : String} (h : '/' ∉ name.toList) (hother : '/' ∉ other.toList)
    (heq : join dir name = join dir other) : name = other := by
  have hpieces := (pieces_join h).symm.trans (heq ▸ pieces_join hother)
  exact List.singleton_inj.1 (List.append_inj' hpieces rfl).2

theorem mem_folderPieces {p : String} (hp : p ∈ folderPieces dir) : p ∈ pieces dir := by
  rw [folderPieces] at hp
  split_ifs at hp
  · simp at hp
  · exact List.mem_of_mem_dropLast hp
  · exact hp

theorem filter_folderPieces (dir : String) :
    (folderPieces dir).filter (· ≠ "") = (pieces dir).filter (· ≠ "") := by
  rw [folderPieces]
  split_ifs with hempty hslash
  · rw [hempty]
    rfl
  · obtain ⟨start, rfl⟩ := exists_append_slash hslash
    rw [pieces_append_slash, List.dropLast_concat, List.filter_append]
    simp
  · rfl

theorem mem_pieces_join {p : String} (h : '/' ∉ name.toList) (hp : p ∈ pieces dir) (hne : p ≠ "") :
    p ∈ pieces (join dir name) := by
  have hmem : p ∈ (folderPieces dir).filter (· ≠ "") := by
    rw [filter_folderPieces]
    exact List.mem_filter.2 ⟨hp, by simpa using hne⟩
  rw [pieces_join h]
  exact List.mem_append_left _ (List.mem_of_mem_filter hmem)

/-- **A path names something:** the root, or what one of its pieces is called. -/
def Names (path : String) : Prop :=
  isAbsolute path = true ∨ ∃ p ∈ pieces path, p ≠ "" ∧ p ≠ "."

theorem Names.join (h : Names dir) (hslash : '/' ∉ name.toList) : Names (join dir name) := by
  rcases h with habsolute | ⟨p, hp, hne, hpoint⟩
  · exact .inl (by rw [isAbsolute_join hslash, habsolute])
  · exact .inr ⟨p, mem_pieces_join hslash hp hne, hne, hpoint⟩

theorem Names.ne_empty (h : Names dir) : dir ≠ "" := by
  rcases h with habsolute | ⟨p, hp, hne, -⟩
  · rintro rfl
    cases habsolute
  · exact ne_empty_of_mem_pieces hp hne

theorem Names.ne_point (h : Names dir) : dir ≠ "." := by
  rintro rfl
  rcases h with habsolute | ⟨p, hp, -, hpoint⟩
  · cases habsolute
  · rw [pieces_eq_singleton (by simp), List.mem_singleton] at hp
    exact hpoint hp

/-- The pieces of a path that are called something lead somewhere. -/
theorem mem_components {p : String} (hp : p ∈ pieces dir) (hne : p ≠ "") (hpoint : p ≠ ".") :
    p ∈ components dir := by
  have hfilter : p ∈ (pieces dir).filter (· ≠ "") := List.mem_filter.2 ⟨hp, by simpa using hne⟩
  rw [components]
  split
  · next hnil =>
    rw [hnil] at hfilter
    cases hfilter
  · next q qs hcons =>
    rw [hcons] at hfilter
    split_ifs
    · exact List.mem_filter.2 ⟨hfilter, by simpa using hpoint⟩
    · rcases List.mem_cons.1 hfilter with rfl | hq
      · exact List.mem_cons_self
      · exact List.mem_cons_of_mem q (List.mem_filter.2 ⟨hq, by simpa using hpoint⟩)

/-- A path that names something leads elsewhere than where it starts from. -/
theorem Names.isCurrent (h : Names dir) : isCurrent dir = false := by
  rw [Path.isCurrent, Bool.and_eq_false_iff]
  rcases h with habsolute | ⟨p, hp, hne, hpoint⟩
  · exact .inl (by rw [habsolute]; rfl)
  · refine .inr (decide_eq_false fun hcomponents => hpoint ?_)
    have hmem := mem_components hp hne hpoint
    rwa [hcomponents, List.mem_singleton] at hmem

/-- The name at the end of the path of an entry. -/
theorem fileName?_join (h : '/' ∉ name.toList) (hname : name ≠ "" ∧ name ≠ "." ∧ name ≠ "..") :
    fileName? (join dir name) = some name := by
  have hlast : (components (join dir name)).getLast? = some name := by
    have hself : [name].filter (· ≠ "") = [name] := by simp [hname.1]
    have hself' : [name].filter (· ≠ ".") = [name] := by simp [hname.2.1]
    rw [components, pieces_join h, List.filter_append, hself]
    cases hdir : (folderPieces dir).filter (· ≠ "") with
    | nil =>
      simp only [List.nil_append, hself', List.filter_nil]
      split_ifs <;> rfl
    | cons p ps =>
      simp only [List.cons_append]
      rw [← List.cons_append, List.filter_append, List.filter_append, hself', ← List.cons_append]
      split_ifs <;> rw [List.getLast?_concat]
  simp [fileName?, hlast, hname.2]

/-- The pieces of the path of a folder that a pattern has as components: a slash at the
    beginning is none. -/
def patternPieces (dir : String) : List String :=
  if isAbsolute dir then (folderPieces dir).drop 1 else folderPieces dir

theorem mem_patternPieces {p : String} (hp : p ∈ patternPieces dir) : p ∈ folderPieces dir := by
  rw [patternPieces] at hp
  split_ifs at hp
  · exact List.mem_of_mem_drop hp
  · exact hp

/-- A path from the root begins with an empty piece. -/
theorem folderPieces_absolute (h : isAbsolute dir = true) :
    folderPieces dir = "" :: (folderPieces dir).drop 1 := by
  obtain ⟨cs, hdir⟩ : ∃ cs, dir.toList = '/' :: cs := by
    rw [isAbsolute, decide_eq_true_eq] at h
    exact List.head?_eq_some_iff.1 h
  obtain ⟨q, qs, hsplit⟩ := List.exists_cons_of_ne_nil (Text.splitChars_ne_nil '/' cs)
  have hpieces : pieces dir = "" :: String.ofList q :: qs.map String.ofList := by
    rw [pieces, Text.split, hdir, Text.splitChars, if_pos rfl, hsplit]
    rfl
  have hempty : dir ≠ "" := by
    rintro rfl
    cases h
  rw [folderPieces, if_neg hempty, hpieces]
  split_ifs <;> rfl

end Path

/-! ## Patterns -/

namespace Glob

/-- A character that stands for itself wherever it is in a pattern. -/
def IsPlain (c : Char) : Prop := c ≠ '*' ∧ c ≠ '?' ∧ c ≠ '['

theorem tokens_cons {c : Char} (hc : IsPlain c) (i : Nat) (before : Option Char) (cs : List Char) :
    tokens i before (c :: cs) = (tokens (i + 1) (some c) cs).map (.char c :: ·) := by
  obtain ⟨hstar, hmark, hbracket⟩ := hc
  rw [tokens]
  · cases tokens (i + 1) (some c) cs <;> rfl
  all_goals simp_all

theorem tokens_plain {cs : List Char} (hcs : ∀ c ∈ cs, IsPlain c) (i : Nat)
    (before : Option Char) : tokens i before cs = .ok (cs.map .char) := by
  induction cs generalizing i before with
  | nil => rw [tokens]; rfl
  | cons c cs ih =>
    obtain ⟨hc, hcs⟩ := List.forall_mem_cons.1 hcs
    rw [tokens_cons hc, ih hcs]
    rfl

/-- **A star between plain characters** is the only wildcard. -/
theorem tokens_star (cs ds : List Char) (hcs : ∀ c ∈ cs, IsPlain c) (hds : ∀ c ∈ ds, IsPlain c)
    (i : Nat) (before : Option Char) :
    tokens i before (cs ++ '*' :: ds) = .ok (cs.map .char ++ .anySequence :: ds.map .char) := by
  induction cs generalizing i before with
  | nil =>
    rw [List.nil_append, tokens, tokens_plain hds]
    · rfl
    all_goals
      rintro _ rfl
      simp [IsPlain] at hds
  | cons c cs ih =>
    obtain ⟨hc, hcs⟩ := List.forall_mem_cons.1 hcs
    rw [List.cons_append, tokens_cons hc, ih hcs]
    rfl

theorem parse_plain {text : String} (h : ∀ c ∈ text.toList, IsPlain c) :
    Component.parse text = .ok (.name text) := by
  have hstars : text ≠ "**" := by
    rintro rfl
    exact (h '*' (by simp)).1 rfl
  rw [Component.parse, tokens_plain h]
  simp [hstars, Token.literal?, bind, Except.bind, pure, Except.pure]

theorem parse_star {ending : String} (h : ∀ c ∈ ending.toList, IsPlain c) :
    Component.parse ("*" ++ ending) =
      .ok (.wild (.anySequence :: ending.toList.map .char)) := by
  have hstars : "*" ++ ending ≠ "**" := by
    intro heq
    have hending := congrArg String.toList heq
    rw [String.toList_append] at hending
    have : ending.toList = ['*'] := by simpa using hending
    exact (h '*' (by simp [this])).1 rfl
  have htokens := tokens_star [] ending.toList (by simp) h 0 none
  rw [List.nil_append] at htokens
  rw [Component.parse, String.toList_append]
  simp [htokens, hstars, Token.literal?, bind, Except.bind, pure, Except.pure]

theorem parseAll_names {ps : List String} (h : ∀ p ∈ ps, ∀ c ∈ p.toList, IsPlain c) {last : String}
    {c : Component} (hlast : Component.parse last = .ok c) :
    parseAll (ps ++ [last]) = .ok (ps.map .name ++ [c]) := by
  induction ps with
  | nil => simp [parseAll, hlast, bind, Except.bind, pure, Except.pure]
  | cons p ps ih =>
    obtain ⟨hp, hps⟩ := List.forall_mem_cons.1 h
    rw [List.cons_append, parseAll, parse_plain hp, ih hps]
    rfl

theorem withoutLastEmpty_concat {last : String} (h : last ≠ "") (ps : List String) :
    withoutLastEmpty (ps ++ [last]) = ps ++ [last] := by
  induction ps with
  | nil => simp [withoutLastEmpty, h]
  | cons p ps ih =>
    rw [List.cons_append, withoutLastEmpty, ih]
    simp

theorem componentTexts_join {dir name : String} (hslash : '/' ∉ name.toList) (hname : name ≠ "") :
    componentTexts (Path.join dir name) = Path.patternPieces dir ++ [name] := by
  have hpieces : (if Path.isAbsolute dir then (Path.folderPieces dir ++ [name]).drop 1
      else Path.folderPieces dir ++ [name]) = Path.patternPieces dir ++ [name] := by
    rw [Path.patternPieces]
    split_ifs with habsolute
    · rw [Path.folderPieces_absolute habsolute]
      rfl
    · rfl
  rw [componentTexts, Path.pieces_join hslash, Path.isAbsolute_join hslash]
  simp only [hpieces, withoutLastEmpty_concat hname]
  cases Path.patternPieces dir <;> rfl

/-- The pattern for the entries of a folder that have an ending. -/
def endingPattern (dir ending : String) : Pattern where
  components := (Path.patternPieces dir).map .name ++
    [.wild (.anySequence :: ending.toList.map .char)]
  onlyFolders := false
  absolute := Path.isAbsolute dir

/-- **A star and an ending in a folder**, read as a pattern. -/
theorem parse_join {dir ending : String} (hdir : ∀ c ∈ dir.toList, IsPlain c)
    (hending : ∀ c ∈ ending.toList, IsPlain c) (hslash : '/' ∉ ending.toList) :
    Pattern.parse (Path.join dir ("*" ++ ending)) = .ok (endingPattern dir ending) := by
  have hname : '/' ∉ ("*" ++ ending).toList := by simpa [String.toList_append] using hslash
  obtain ⟨start, -, hstart, hjoin⟩ := Path.exists_join dir
  have htext : (Path.join dir ("*" ++ ending)).toList = start.toList ++ '*' :: ending.toList := by
    rw [hjoin _ hname, String.toList_append, String.toList_append]
    rfl
  have hplain : ∀ c ∈ start.toList, IsPlain c := fun c hc => by
    rcases List.mem_cons.1 (hstart hc) with rfl | hc
    · simp [IsPlain]
    · exact hdir c hc
  have hpieces : ∀ p ∈ Path.patternPieces dir, ∀ c ∈ p.toList, IsPlain c := fun p hp c hc =>
    hdir c (Text.mem_split (Path.mem_folderPieces (Path.mem_patternPieces hp)) hc).2
  have hlast : (Path.join dir ("*" ++ ending)).toList.getLast? ≠ some '/' := by
    rw [htext, List.getLast?_append_of_ne_nil _ (List.cons_ne_nil _ _)]
    intro hlast
    rcases List.mem_cons.1 (List.mem_of_getLast? hlast) with h | h
    · cases h
    · exact hslash h
  rw [Pattern.parse, htext, tokens_star _ _ hplain hending, componentTexts_join hname (by simp),
    parseAll_names hpieces (parse_star hending), ← htext, Path.isAbsolute_join hname]
  simp [hlast, endingPattern, bind, Except.bind, pure, Except.pure]

/-! ## Names that have an ending -/

theorem tokensMatch_plain (ts cs : List Char) :
    tokensMatch (ts.map .char) cs = true ↔ cs = ts := by
  induction ts generalizing cs with
  | nil => simp [tokensMatch]
  | cons t ts ih =>
    cases cs with
    | nil => simp [tokensMatch]
    | cons c cs => simp [tokensMatch, Token.accepts, ih]

theorem skipping_plain (ts cs : List Char) :
    tokensMatch.skipping (ts.map .char) cs = true ↔ ts <:+ cs := by
  induction cs with
  | nil => rw [tokensMatch.skipping, tokensMatch_plain, List.suffix_nil, eq_comm]
  | cons c cs ih =>
    rw [tokensMatch.skipping, Bool.or_eq_true, tokensMatch_plain, ih, List.suffix_cons_iff, eq_comm]

/-- **A star and an ending** stand for the names that have this ending. -/
theorem tokensMatch_star (ending : List Char) (cs : List Char) :
    tokensMatch (.anySequence :: ending.map .char) cs = true ↔ ending <:+ cs := by
  rw [tokensMatch, skipping_plain]

/-! ## Spots -/

/-- The point is left out of the paths of entries. -/
theorem pathTo_point (place : Place) (name : String) : Spot.pathTo ⟨".", place⟩ name = name := by
  have hcurrent : Path.isCurrent "." = true := by decide
  rw [Spot.pathTo, if_pos hcurrent]

/-- The path of an entry of a spot is its name, or that of an entry of some folder. -/
theorem Spot.pathTo_eq_join (s : Spot) (name : String) :
    ∃ dir, s.pathTo name = Path.join dir name := by
  rw [Spot.pathTo]
  split_ifs
  · exact ⟨"", by simp [Path.join]⟩
  · exact ⟨s.path, rfl⟩

/-- **The path of a spot leads to its place.** It is the point from which a search starts
    in the working folder, or it names something. -/
def Spot.Leads (fs : FileSystem) (s : Spot) : Prop :=
  s = ⟨".", fs.working⟩ ∨ fs.resolve s.path = .ok s.place ∧ Path.Names s.path

variable {fs : FileSystem} {s : Spot} {name : String} {next : Place}

/-- From where a search starts in the working folder an empty piece leads nowhere. -/
theorem Spot.Leads.step (h : s.Leads fs) (hslash : '/' ∉ name.toList)
    (hempty : s.path = "." → name ≠ "") (hstep : fs.root.step s.place name = .ok next) :
    Spot.Leads fs ⟨s.pathTo name, next⟩ ∧ s.pathTo name ≠ "" ∧
      (s.pathTo name = "." → s.path = "." ∧ name = ".") := by
  rcases h with rfl | ⟨hresolve, hnames⟩
  · have hpieces := Path.pieces_eq_singleton hslash
    rw [pathTo_point]
    refine ⟨?_, hempty rfl, fun hname => ⟨rfl, hname⟩⟩
    by_cases hname : name = "."
    · subst hname
      obtain ⟨es, -, hstay⟩ := bind_eq_ok.1 hstep
      obtain rfl : fs.working = next := Except.ok.inj hstay
      exact .inl rfl
    · refine .inr ⟨?_, .inr ⟨name, by simp [hpieces], hempty rfl, hname⟩⟩
      rw [FileSystem.resolve, if_neg (hempty rfl), hpieces, FileSystem.start,
        Path.isAbsolute_eq_false hslash, Folder.follow_singleton]
      exact hstep
  · have hpath : s.pathTo name = Path.join s.path name := by
      rw [Spot.pathTo, hnames.isCurrent]
      rfl
    have hjoin : Path.Names (Path.join s.path name) := hnames.join hslash
    rw [hpath]
    refine ⟨.inr ⟨?_, hjoin⟩, hjoin.ne_empty, fun hpoint => absurd hpoint hjoin.ne_point⟩
    exact (FileSystem.Leads.of_resolve hresolve).resolve_join hslash hjoin.ne_empty hstep

theorem Spot.Leads.named? (h : s.Leads fs) (hslash : '/' ∉ name.toList)
    (hempty : s.path = "." → name ≠ "") (hstep : fs.root.step s.place name = .ok next) :
    s.named? fs.root name = some ⟨s.pathTo name, next⟩ := by
  simp [Spot.named?, (h.step hslash hempty hstep).2.1, hstep]

/-- The path of an entry leads to it. -/
theorem Spot.Leads.resolve_pathTo (h : s.Leads fs) (hslash : '/' ∉ name.toList)
    (hname : name ≠ "" ∧ name ≠ "." ∧ name ≠ "..") (hstep : fs.root.step s.place name = .ok next) :
    fs.resolve (s.pathTo name) = .ok next := by
  obtain ⟨hstart | ⟨hresolve, -⟩, -, hpoint⟩ := h.step hslash (fun _ => hname.1) hstep
  · exact absurd (hpoint (congrArg Spot.path hstart)).2 hname.2.1
  · exact hresolve

/-- A file is read under the path of the entry. -/
theorem Spot.Leads.read_pathTo {text : String} (h : s.Leads fs) (hslash : '/' ∉ name.toList)
    (hname : name ≠ "" ∧ name ≠ "." ∧ name ≠ "..")
    (hfile : fs.root.at? (s.place ++ [name]) = some (.file (some text))) :
    fs.read (s.pathTo name) = .ok text := by
  obtain ⟨es, hes, hget⟩ := Folder.at?_concat.1 hfile
  have hstep : fs.root.step s.place name = .ok (s.place ++ [name]) :=
    Folder.step_entry hname (Folder.contents_eq_ok.2 hes) (by rw [hget]; rfl)
  refine bind_eq_ok.2 ⟨_, h.resolve_pathTo hslash hname hstep, ?_⟩
  rw [hfile]
  rfl

/-- **Names without wildcards** lead where the path does, unless they go from points to an
    empty piece in the working folder. -/
theorem find_names {ps : List String} (h : s.Leads fs) (hps : ∀ p ∈ ps, '/' ∉ p.toList)
    (hstart : s.path = "." → ps.find? (· ≠ ".") ≠ some "")
    (hfollow : fs.root.follow s.place ps = .ok next) (onlyFolders : Bool) (rest : List Component) :
    ∃ s' : Spot, s'.Leads fs ∧ s'.place = next ∧
      find fs.root onlyFolders (ps.map .name ++ rest) s = find fs.root onlyFolders rest s' := by
  induction ps generalizing s with
  | nil => exact ⟨s, h, Except.ok.inj hfollow, rfl⟩
  | cons p ps ih =>
    obtain ⟨hp, hps⟩ := List.forall_mem_cons.1 hps
    obtain ⟨place, hstep, hrest⟩ := bind_eq_ok.1 hfollow
    have hempty : s.path = "." → p ≠ "" := by
      rintro hs rfl
      exact hstart hs (by simp)
    obtain ⟨hleads, -, hpoint⟩ := h.step hp hempty hstep
    -- only a point leaves the search where it starts from, and points are passed over
    obtain ⟨s', hs', hplace, hfind⟩ := ih hleads hps (fun hpath hstuck => by
      obtain ⟨hs, rfl⟩ := hpoint hpath
      exact hstart hs (by simpa using hstuck)) hrest
    refine ⟨s', hs', hplace, ?_⟩
    rw [List.map_cons, List.cons_append, find, h.named? hp hempty hstep]
    exact hfind

theorem find_stuck {ps : List String} (h : ps.find? (· ≠ ".") = some "") (root : Folder)
    (place : Place) (onlyFolders : Bool) (rest : List Component) :
    find root onlyFolders (ps.map .name ++ rest) ⟨".", place⟩ = [] := by
  induction ps with
  | nil => cases h
  | cons p ps ih =>
    rw [List.map_cons, List.cons_append, find, Spot.named?, pathTo_point]
    by_cases hp : p = "."
    · subst hp
      simp only [Folder.step]
      cases root.contents place with
      | error e => rfl
      | ok es => exact ih (by simpa using h)
    · obtain rfl : p = "" := by simpa [hp] using h
      rfl

/-! ## Searches -/

/-- **The path of a folder is dangling** if it starts from the working folder and goes from
    points to an empty piece, so that a search stops there. -/
def Dangling (dir : String) : Prop :=
  Path.isAbsolute dir = false ∧ (Path.folderPieces dir).find? (· ≠ ".") = some ""

instance (dir : String) : Decidable (Dangling dir) := inferInstanceAs (Decidable (_ ∧ _))

variable {dir : String} (ending : String)

/-- A pattern is searched for from where the path of the folder starts. -/
theorem start_endingPattern (fs : FileSystem) (dir : String) :
    ((endingPattern dir ending).start fs).Leads fs ∧
      ((endingPattern dir ending).start fs).place = fs.start dir ∧
      (((endingPattern dir ending).start fs).path = "." → Path.isAbsolute dir = false) := by
  rw [Pattern.start, endingPattern, FileSystem.start]
  split_ifs with habsolute
  · exact ⟨.inr ⟨rfl, .inl rfl⟩, rfl, by simp⟩
  · exact ⟨.inl rfl, rfl, fun _ => by simpa using habsolute⟩

/-- The components of a pattern lead where the path of the folder does. -/
theorem follow_patternPieces {place : Place} (h : fs.Leads dir place) :
    fs.root.follow (fs.start dir) (Path.patternPieces dir) = .ok place := by
  rw [Path.patternPieces]
  split_ifs with habsolute
  · rw [FileSystem.Leads, FileSystem.start, if_pos habsolute,
      Path.folderPieces_absolute habsolute] at h
    rw [FileSystem.start, if_pos habsolute]
    exact h
  · exact h

/-- **A pattern for an ending** finds the entries of the folder that have it, in their
    order and each once, under paths that lead to them. -/
theorem search_eq {place : Place} {es : Folder} (hdangling : ¬Dangling dir)
    (hleads : fs.Leads dir place) (hes : fs.root.contents place = .ok es) :
    ∃ s : Spot, s.Leads fs ∧ s.place = place ∧
      search fs (endingPattern dir ending) =
        (es.filter fun x => ending.toList.isSuffixOf x.1.toList).map fun x => s.pathTo x.1 := by
  have hpieces : ∀ p ∈ Path.patternPieces dir, '/' ∉ p.toList := fun p hp hslash =>
    (Text.mem_split (Path.mem_folderPieces (Path.mem_patternPieces hp)) hslash).1 rfl
  obtain ⟨hstart, hplace, hrelative⟩ := start_endingPattern ending fs dir
  obtain ⟨s, hs, rfl, hfind⟩ := find_names hstart hpieces
    (fun hpath hstuck => hdangling ⟨hrelative hpath, by
      rwa [Path.patternPieces, if_neg (by simp [hrelative hpath])] at hstuck⟩)
    (hplace ▸ follow_patternPieces hleads) false [.wild (.anySequence :: ending.toList.map .char)]
  refine ⟨s, hs, rfl, ?_⟩
  have hfolder : folderAt fs.root s = some es := by rw [folderAt, hes]; rfl
  have hpointed : pointed (.anySequence :: ending.toList.map .char) = [] := rfl
  have hmatch : ∀ cs, tokensMatch (.anySequence :: ending.toList.map .char) cs =
      ending.toList.isSuffixOf cs := fun cs => by
    rw [Bool.eq_iff_iff, tokensMatch_star, List.isSuffixOf_iff_suffix]
  have hsearch : search fs (endingPattern dir ending) =
      find fs.root false [.wild (.anySequence :: ending.toList.map .char)] s := hfind
  rw [hsearch, find, hfolder]
  simp only [hpointed, List.flatMap_nil, List.nil_append, hmatch]
  clear hes hfolder
  induction es with
  | nil => rfl
  | cons x es ih =>
    rw [List.flatMap_cons, List.filter_cons, ih]
    split_ifs <;> rfl

/-- An entry is found if it has the ending, and nothing else is. -/
theorem mem_search {place : Place} {es : Folder} (hdangling : ¬Dangling dir)
    (hleads : fs.Leads dir place) (hes : fs.root.contents place = .ok es) :
    ∃ s : Spot, s.Leads fs ∧ s.place = place ∧ ∀ path,
      path ∈ search fs (endingPattern dir ending) ↔
        ∃ x ∈ es, ending.toList <:+ x.1.toList ∧ path = s.pathTo x.1 := by
  obtain ⟨s, hs, hplace, hsearch⟩ := search_eq ending hdangling hleads hes
  refine ⟨s, hs, hplace, fun path => ?_⟩
  rw [hsearch]
  simp only [List.mem_map, List.mem_filter, List.isSuffixOf_iff_suffix, and_assoc,
    eq_comm (a := path)]

theorem search_dangling (fs : FileSystem) (h : Dangling dir) :
    search fs (endingPattern dir ending) = [] := by
  obtain ⟨hrelative, hstuck⟩ := h
  have hsearch : search fs (endingPattern dir ending) = find fs.root false
      ((Path.folderPieces dir).map .name ++ [.wild (.anySequence :: ending.toList.map .char)])
      ⟨".", fs.working⟩ := by
    simp [search, Pattern.start, endingPattern, Path.patternPieces, hrelative]
  rw [hsearch, find_stuck hstuck]

end Glob

end TreeDoc.Files
