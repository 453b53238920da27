/-
  The files that a run leaves behind.

  * `pieces_join`, `targetName_plain`: where the document of an input is written;
  * `FileSystem.Leads`, `FileSystem.Holds`: the path of a folder leads to a place, and the
    folder there holds a file with a text;
  * `write_join`: what is written into a folder, and what stays there;
  * `save_holds`, `saveAll_holds`: the same for documents that are saved;
  * `last_document_kept`: of the inputs whose documents are written to one file, the
    last one leaves its document there, so that none is lost if and only if they all
    have the same.
-/
import Mathlib.Data.List.Basic
import TreeDoc.Proofs.FolderChanges
import TreeDoc.Proofs.Pointers
import TreeDoc.Proofs.Schedules

/-! ## Texts cut into pieces -/

namespace TreeDoc.Text

theorem splitChars_ne_nil (mark : Char) (t : List Char) : splitChars mark t ≠ [] := by
  cases t with
  | nil => simp [splitChars]
  | cons c t =>
    rw [splitChars]
    split_ifs
    · simp
    · split <;> simp

/-- A text is cut at every mark. -/
theorem splitChars_append_cons (mark : Char) (xs ys : List Char) :
    splitChars mark (xs ++ mark :: ys) = splitChars mark xs ++ splitChars mark ys := by
  induction xs with
  | nil => simp [splitChars]
  | cons c xs ih =>
    obtain ⟨p, ps, hsplit⟩ := List.exists_cons_of_ne_nil (splitChars_ne_nil mark xs)
    rw [hsplit] at ih
    rw [List.cons_append, splitChars, splitChars, ih, hsplit]
    split_ifs <;> simp

theorem mem_splitChars {mark c : Char} {t p : List Char} (hp : p ∈ splitChars mark t)
    (hc : c ∈ p) : c ≠ mark ∧ c ∈ t := by
  induction t generalizing p with
  | nil =>
    obtain rfl : p = [] := by simpa [splitChars] using hp
    simp at hc
  | cons d t ih =>
    rw [splitChars] at hp
    obtain ⟨q, qs, hsplit⟩ := List.exists_cons_of_ne_nil (splitChars_ne_nil mark t)
    rw [hsplit] at hp ih
    split_ifs at hp with hd
    · rcases List.mem_cons.1 hp with rfl | hp
      · simp at hc
      · exact (ih hp hc).imp_right (List.mem_cons_of_mem d)
    · rcases List.mem_cons.1 hp with rfl | hp
      · rcases List.mem_cons.1 hc with rfl | hc
        · exact ⟨hd, List.mem_cons_self⟩
        · exact (ih List.mem_cons_self hc).imp_right (List.mem_cons_of_mem d)
      · exact (ih (List.mem_cons_of_mem q hp) hc).imp_right (List.mem_cons_of_mem d)

theorem mem_split {mark c : Char} {s p : String} (hp : p ∈ split mark s) (hc : c ∈ p.toList) :
    c ≠ mark ∧ c ∈ s.toList := by
  obtain ⟨q, hq, rfl⟩ := List.mem_map.1 hp
  exact mem_splitChars hq (by simpa using hc)

theorem mem_intercalate {c : Char} {sep : List Char} {xs : List (List Char)}
    (h : c ∈ sep.intercalate xs) : c ∈ sep ∨ ∃ x ∈ xs, c ∈ x := by
  induction xs with
  | nil => simp [List.intercalate] at h
  | cons x xs ih =>
    cases xs with
    | nil => exact .inr ⟨x, by simp, by simpa using h⟩
    | cons y ys =>
      rw [List.intercalate_cons_cons, List.append_assoc, List.mem_append, List.mem_append] at h
      rcases h with h | h | h
      · exact .inr ⟨x, by simp, h⟩
      · exact .inl h
      · exact (ih h).imp_right fun ⟨z, hz, hc⟩ => ⟨z, List.mem_cons_of_mem x hz, hc⟩

end TreeDoc.Text

/-! ## The path of a document -/

namespace TreeDoc.Files.Path

/-- The pieces of the path of a folder that lead to it, without an empty one at the end. -/
def folderPieces (dir : String) : List String :=
  if dir = "" then []
  else if dir.toList.getLast? = some '/' then (pieces dir).dropLast
  else pieces dir

theorem pieces_eq_singleton {name : String} (h : '/' ∉ name.toList) : pieces name = [name] := by
  rw [pieces, Text.split, Text.splitChars_eq_singleton h]
  simp

theorem pieces_append (dir name : String) :
    pieces (dir ++ "/" ++ name) = pieces dir ++ pieces name := by
  rw [pieces, pieces, pieces, Text.split, Text.split, Text.split, ← List.map_append]
  simp [String.toList_append, ← Text.splitChars_append_cons]

theorem pieces_append_slash (dir : String) : pieces (dir ++ "/") = pieces dir ++ [""] := by
  simpa [pieces, Text.split, Text.splitChars] using pieces_append dir ""

theorem exists_append_slash {dir : String} (h : dir.toList.getLast? = some '/') :
    ∃ start, dir = start ++ "/" := by
  obtain ⟨cs, hcs⟩ := List.getLast?_eq_some_iff.1 h
  refine ⟨String.ofList cs, ?_⟩
  rw [← String.toList_inj, hcs]
  simp

theorem isAbsolute_eq_false {name : String} (h : '/' ∉ name.toList) : isAbsolute name = false := by
  rw [isAbsolute, decide_eq_false_iff_not]
  intro hhead
  exact h (List.mem_of_head? hhead)

/-- **The pieces of the path of a file** are those of its folder and its name. -/
theorem pieces_join {dir name : String} (h : '/' ∉ name.toList) :
    pieces (join dir name) = folderPieces dir ++ [name] := by
  rw [join, folderPieces, isAbsolute_eq_false h, Bool.or_false]
  simp only [decide_eq_true_eq]
  split_ifs with hempty hslash
  · rw [pieces_eq_singleton h, List.nil_append]
  · obtain ⟨start, rfl⟩ := exists_append_slash hslash
    rw [pieces_append, pieces_eq_singleton h, pieces_append_slash, List.dropLast_concat]
  · rw [pieces_append, pieces_eq_singleton h]

/-- The path of an entry begins where that of its folder does. -/
theorem isAbsolute_join {dir name : String} (h : '/' ∉ name.toList) :
    isAbsolute (join dir name) = isAbsolute dir := by
  rw [join, isAbsolute_eq_false h, Bool.or_false]
  simp only [decide_eq_true_eq]
  split_ifs with hempty hslash
  · rw [hempty, isAbsolute_eq_false h]
    rfl
  all_goals
    obtain ⟨c, cs, hdir⟩ := List.exists_cons_of_ne_nil (mt String.toList_eq_nil_iff.1 hempty)
    simp [isAbsolute, String.toList_append, hdir]

theorem ne_empty_of_mem_pieces {path p : String} (hp : p ∈ pieces path) (hne : p ≠ "") :
    path ≠ "" := by
  rintro rfl
  rw [pieces_eq_singleton (by simp), List.mem_singleton] at hp
  exact hne hp

theorem join_ne_empty {dir name : String} (h : '/' ∉ name.toList) (hname : name ≠ "") :
    join dir name ≠ "" :=
  ne_empty_of_mem_pieces (by rw [pieces_join h]; simp) hname

/-- A name with a long ending is one piece of a path, and leads neither to its folder nor
    above it. -/
theorem plain_append {start ending : String} (hstart : '/' ∉ start.toList)
    (hending : '/' ∉ ending.toList) (hlength : 2 < ending.length) :
    '/' ∉ (start ++ ending).toList ∧ start ++ ending ≠ "" ∧ start ++ ending ≠ "." ∧
      start ++ ending ≠ ".." := by
  have hlong : 2 < (start ++ ending).length := by
    rw [String.length_append]
    omega
  refine ⟨?_, ?_, ?_, ?_⟩
  · rw [String.toList_append, List.mem_append]
    rintro (h | h)
    · exact hstart h
    · exact hending h
  all_goals
    intro h
    rw [h] at hlong
    exact absurd hlong (by decide)

theorem mem_pieces_of_mem_components {path name : String} (h : name ∈ components path) :
    name ∈ pieces path := by
  rw [components] at h
  split at h
  · simp at h
  · next p ps hfilter =>
    have hmem : name ∈ p :: ps := by
      split_ifs at h
      · exact List.mem_of_mem_filter h
      · rcases List.mem_cons.1 h with rfl | h
        · exact List.mem_cons_self
        · exact List.mem_cons_of_mem p (List.mem_of_mem_filter h)
    rw [← hfilter] at hmem
    exact List.mem_of_mem_filter hmem

theorem slash_not_mem_fileName {path name : String} (h : fileName? path = some name) :
    '/' ∉ name.toList := by
  rw [fileName?] at h
  cases hlast : (components path).getLast? with
  | none => simp [hlast] at h
  | some last =>
    simp only [hlast] at h
    split_ifs at h
    obtain rfl := Option.some.inj h
    have hmem := mem_pieces_of_mem_components (List.mem_of_getLast? hlast)
    exact fun hslash => (Text.mem_split hmem hslash).1 rfl

theorem mem_of_mem_stem {name : String} {c : Char} (h : c ∈ (stem name).toList) :
    c = '.' ∨ c ∈ name.toList := by
  rw [stem] at h
  split at h
  · exact .inr h
  · exact .inr h
  · exact .inr h
  · next last before _ _ hsplit =>
    rw [String.toList_intercalate] at h
    rcases Text.mem_intercalate h with hdot | ⟨x, hx, hc⟩
    · exact .inl (by simpa using hdot)
    · obtain ⟨p, hp, rfl⟩ := List.mem_map.1 hx
      have hmem : p ∈ Text.split '.' name := by
        rw [← List.mem_reverse, hsplit]
        exact List.mem_cons_of_mem last (List.mem_reverse.1 hp)
      exact .inr (Text.mem_split hmem hc).2

end TreeDoc.Files.Path

namespace TreeDoc.Command.Request

theorem trimmed_go_suffix (beginning : List Char) (n : Nat) (cs : List Char) :
    trimmed.go beginning n cs <:+ cs := by
  induction n generalizing cs with
  | zero => exact List.suffix_refl cs
  | succ n ih =>
    rw [trimmed.go]
    split_ifs
    · exact (ih _).trans (List.drop_suffix _ cs)
    · exact List.suffix_refl cs

theorem mem_of_mem_trimmed {name : List Char} {c : Char} (h : c ∈ trimmed name) : c ∈ name := by
  rw [trimmed, List.mem_reverse] at h
  exact List.mem_reverse.1 (List.IsSuffix.mem h (trimmed_go_suffix _ _ _))

/-- **The name of a document** is one piece of a path, and leads neither to its folder
    nor above it. -/
theorem targetName_plain (path : String) :
    '/' ∉ (targetName path).toList ∧ targetName path ≠ "" ∧ targetName path ≠ "." ∧
      targetName path ≠ ".." := by
  obtain ⟨stem, hslash, hname⟩ :
      ∃ stem : String, '/' ∉ stem.toList ∧ targetName path = stem ++ ".model.json" := by
    rw [targetName]
    cases hstem : Files.Path.fileStem? path with
    | none => exact ⟨"document", by decide, rfl⟩
    | some stem =>
      refine ⟨String.ofList (trimmed stem.toList), fun h => ?_, rfl⟩
      rw [String.toList_ofList] at h
      obtain ⟨name, hname, rfl⟩ := Option.map_eq_some_iff.1 hstem
      rcases Files.Path.mem_of_mem_stem (mem_of_mem_trimmed h) with h | h
      · exact absurd h (by decide)
      · exact Files.Path.slash_not_mem_fileName hname h
  rw [hname]
  exact Files.Path.plain_append hslash (by decide) (by decide)

end TreeDoc.Command.Request

namespace TreeDoc.Files

open Decode (bind_eq_ok)

/-! ## Files in a folder -/

namespace Folder

variable {f : Folder} {place next : Place} {es : Folder} {name : String}

theorem step_empty (h : f.step place "" = .ok next) : place = next := by
  obtain ⟨es, -, hnext⟩ := bind_eq_ok.1 h
  rw [if_pos (.inl rfl)] at hnext
  exact Except.ok.inj hnext

/-- A step to an entry of a folder. -/
theorem step_entry (hname : name ≠ "" ∧ name ≠ "." ∧ name ≠ "..")
    (hes : f.contents place = .ok es) (hget : (Assoc.get? name es).isSome) :
    f.step place name = .ok (place ++ [name]) := by
  obtain ⟨e, he⟩ := Option.isSome_iff_exists.1 hget
  refine bind_eq_ok.2 ⟨es, hes, ?_⟩
  rw [if_neg (by simp [hname.1, hname.2.1]), if_neg hname.2.2, he]
  rfl

end Folder

namespace FileSystem

variable {fs fs' : FileSystem} {place next : Place} {dir name text : String}

/-- **The path of a folder leads to a place.** It may end with a slash. -/
def Leads (fs : FileSystem) (dir : String) (place : Place) : Prop :=
  fs.root.follow (fs.start dir) (Path.folderPieces dir) = .ok place

/-- The folder at a path holds a file with a text. -/
def Holds (fs : FileSystem) (dir name text : String) : Prop :=
  ∃ place, fs.Leads dir place ∧ fs.root.at? (place ++ [name]) = some (.file (some text))

theorem Leads.unique (h : fs.Leads dir place) (hnext : fs.Leads dir next) : place = next :=
  Except.ok.inj (h.symm.trans hnext)

theorem start_join (h : '/' ∉ name.toList) : fs.start (Path.join dir name) = fs.start dir := by
  rw [start, start, Path.isAbsolute_join h]

theorem resolve_success {path : String} (h : fs.resolve path = .ok place) :
    path ≠ "" ∧ fs.root.follow (fs.start path) (Path.pieces path) = .ok place := by
  rw [resolve] at h
  split_ifs at h with hempty
  exact ⟨hempty, h⟩

/-- A path that leads to a place is that of a folder there. -/
theorem Leads.of_resolve (h : fs.resolve dir = .ok place) : fs.Leads dir place := by
  obtain ⟨hempty, hfollow⟩ := resolve_success h
  rw [Leads, Path.folderPieces, if_neg hempty]
  split_ifs with hslash
  · obtain ⟨start, rfl⟩ := Path.exists_append_slash hslash
    rw [Path.pieces_append_slash] at hfollow ⊢
    obtain ⟨place, hplace, hlast⟩ := Folder.follow_append.1 hfollow
    rw [Folder.follow_singleton] at hlast
    rw [List.dropLast_concat, hplace, Folder.step_empty hlast]
  · exact hfollow

/-- A path leads through its folder. -/
theorem Leads.resolve_join (h : fs.Leads dir place) (hslash : '/' ∉ name.toList)
    (hempty : Path.join dir name ≠ "") (hstep : fs.root.step place name = .ok next) :
    fs.resolve (Path.join dir name) = .ok next := by
  rw [resolve, if_neg hempty, start_join hslash, Path.pieces_join hslash]
  exact Folder.follow_append.2 ⟨place, h, by rw [Folder.follow_singleton, hstep]⟩

/-- What a folder holds is read. -/
theorem Holds.read (h : fs.Holds dir name text) (hslash : '/' ∉ name.toList)
    (hname : name ≠ "" ∧ name ≠ "." ∧ name ≠ "..") :
    fs.read (Path.join dir name) = .ok text := by
  obtain ⟨place, hleads, hfile⟩ := h
  obtain ⟨es, hes, hget⟩ := Folder.at?_concat.1 hfile
  have hstep : fs.root.step place name = .ok (place ++ [name]) :=
    Folder.step_entry hname (Folder.contents_eq_ok.2 hes) (by rw [hget]; rfl)
  refine bind_eq_ok.2 ⟨_, hleads.resolve_join hslash (Path.join_ne_empty hslash hname.1) hstep, ?_⟩
  rw [hfile]
  rfl

/-! ## Changed file systems -/

/-- **The working folder is the same,** and files and folders are still there, but for
    files at given places. -/
structure Keeps (changed : Place → Prop) (fs fs' : FileSystem) : Prop where
  working : fs'.working = fs.working
  root : Folder.Keeps changed fs.root fs'.root

section
variable {changed : Place → Prop}

theorem Keeps.leads (h : Keeps changed fs fs') (hleads : fs.Leads dir place) :
    fs'.Leads dir place := by
  rw [Leads, start, h.working]
  exact h.root.follow hleads

theorem Keeps.holds (h : Keeps changed fs fs')
    (hfile : ∀ place, fs.Leads dir place → ¬changed (place ++ [name]))
    (hholds : fs.Holds dir name text) : fs'.Holds dir name text := by
  obtain ⟨place, hleads, hentry⟩ := hholds
  exact ⟨place, h.leads hleads, h.root.file (hfile place hleads) hentry⟩

end

/-- **Writing into a folder** changes one file of it. -/
theorem write_join (hfs : fs.root.Ordered) (hslash : '/' ∉ name.toList)
    (h : fs.write (Path.join dir name) text = .ok fs') :
    fs'.root.Ordered ∧ ∃ place, fs.Leads dir place ∧ Keeps (· = place ++ [name]) fs fs' ∧
      fs'.root.at? (place ++ [name]) = some (.file (some text)) := by
  obtain ⟨place, es, hfollow, hes, hname, rfl⟩ := write_success h (Path.pieces_join hslash)
  rw [start_join hslash] at hfollow
  have hfolder := Folder.contents_eq_ok.1 hes
  exact ⟨Folder.ordered_updateAt hfs trivial hfolder, place, hfollow,
    ⟨rfl, Folder.updateAt_keeps hfs hfolder hname⟩, Folder.at?_updateAt hfs hfolder⟩

end FileSystem

end TreeDoc.Files

namespace TreeDoc.Command.Request

open Files

variable {r : Request} {o : Outcome} {path text dir : String}

/-! ## Saved documents -/

/-- **A document that is written** is found where it belongs, and the others of the
    folder are still there. -/
theorem save_holds (hdir : r.outDir = some dir) (ho : o.system.root.Ordered)
    (h : (r.save o path text).failure = none) :
    (r.save o path text).system.root.Ordered ∧
    (r.save o path text).system.Holds dir (targetName path) text ∧
    ∀ name t, name ≠ targetName path → o.system.Holds dir name t →
      (r.save o path text).system.Holds dir name t := by
  rcases save_success h with ⟨hnone, -⟩ | ⟨dir', made, system, hdir', hmade, hwrite, hsave⟩
  · rw [hdir] at hnone
    cases hnone
  obtain rfl : dir = dir' := Option.some.inj (hdir.symm.trans hdir')
  obtain ⟨hslash, -⟩ := targetName_plain path
  obtain ⟨hworking, hordered, hmadeRoot⟩ := FileSystem.makeFolders_keeps ho hmade
  have hmadeKeeps : FileSystem.Keeps (fun _ => False) o.system made := ⟨hworking, hmadeRoot⟩
  obtain ⟨hsystem, place, hplace, hkeeps, hself⟩ := FileSystem.write_join hordered hslash hwrite
  rw [hsave]
  refine ⟨hsystem, ⟨place, hkeeps.leads hplace, hself⟩, fun name t hname hholds => ?_⟩
  have hmadeHolds : made.Holds dir name t := hmadeKeeps.holds (fun _ _ => id) hholds
  refine hkeeps.holds (fun next hnext hchanged => hname ?_) hmadeHolds
  obtain rfl := hplace.unique hnext
  exact List.singleton_inj.1 (List.append_inj' hchanged rfl).2

/-- **What is saved later** leaves a document alone unless it has the same name. -/
theorem saveAll_holds (hdir : r.outDir = some dir) (ho : o.system.root.Ordered)
    (hnone : o.failure = none) {results : List (String × Except LoadError String)}
    (h : (r.saveAll o results).failure = none) :
    (r.saveAll o results).system.root.Ordered ∧
    ∀ name t, (∀ x ∈ results, targetName x.1 ≠ name) → o.system.Holds dir name t →
      (r.saveAll o results).system.Holds dir name t := by
  induction results generalizing o with
  | nil => exact ⟨ho, fun _ _ _ => id⟩
  | cons x results ih =>
    obtain ⟨p, result⟩ := x
    cases result with
    | error e =>
      rw [saveAll_error] at h ⊢
      obtain ⟨hordered, hholds⟩ :=
        ih (o := { o with stderr := o.stderr ++ failedLine e }) ho hnone h
      exact ⟨hordered, fun name t hnames => hholds name t
        fun x hx => hnames x (List.mem_cons_of_mem _ hx)⟩
    | ok t =>
      by_cases hsave : (r.save o p t).failure = none
      · rw [saveAll_ok hsave] at h ⊢
        obtain ⟨hsaved, -, hothers⟩ := save_holds hdir ho hsave
        obtain ⟨hordered, hholds⟩ := ih hsaved hsave h
        refine ⟨hordered, fun name u hnames hold => hholds name u
          (fun x hx => hnames x (List.mem_cons_of_mem _ hx)) (hothers name u ?_ hold)⟩
        exact (hnames _ List.mem_cons_self).symm
      · rw [saveAll_refused hsave] at h
        exact absurd h hsave

/-- **The last of the documents with one name** is found after a run that saves all. -/
theorem read_saved {fs : FileSystem} {before after : List String} (hordered : fs.root.Ordered)
    (hdir : r.outDir = some dir)
    (hsaved : (r.saveAll { system := fs }
      (r.results fs (before ++ path :: after))).failure = none)
    (hafter : ∀ q ∈ after, targetName q ≠ targetName path) (htext : r.text fs path = .ok text) :
    (r.saveAll { system := fs } (r.results fs (before ++ path :: after))).system.read
      (Path.join dir (targetName path)) = .ok text := by
  have hresults : r.results fs (before ++ path :: after) =
      r.results fs before ++ (path, .ok text) :: r.results fs after := by
    simp [results, htext]
  rw [hresults] at hsaved ⊢
  have hbefore := saveAll_of_append rfl hsaved
  rw [saveAll_append rfl hbefore] at hsaved ⊢
  obtain ⟨hfirst, -⟩ := saveAll_holds hdir hordered rfl hbefore
  generalize r.saveAll { system := fs } (r.results fs before) = o at *
  have hsave : (r.save o path text).failure = none := by
    by_contra hrefused
    rw [saveAll_refused hrefused] at hsaved
    exact hrefused hsaved
  rw [saveAll_ok hsave] at hsaved ⊢
  obtain ⟨hsavedOrdered, hself, -⟩ := save_holds hdir hfirst hsave
  obtain ⟨-, hholds⟩ := saveAll_holds hdir hsavedOrdered hsave hsaved
  obtain ⟨hslash, hname⟩ := targetName_plain path
  refine (hholds _ _ ?_ hself).read hslash hname
  rintro ⟨q, result⟩ hq
  obtain ⟨q', hq', heq⟩ := List.mem_map.1 hq
  obtain ⟨rfl, -⟩ := Prod.mk.inj heq
  exact hafter q' hq'

end TreeDoc.Command.Request

namespace TreeDoc.Command

open Files Request

/-- Every input has a last one that shares its name. -/
theorem exists_last_target {paths : List String} {path : String} (h : path ∈ paths) :
    ∃ before last after, paths = before ++ last :: after ∧ targetName last = targetName path ∧
      ∀ q ∈ after, targetName q ≠ targetName last := by
  obtain ⟨last, hlast⟩ : ∃ last,
      paths.reverse.find? (fun p => decide (targetName p = targetName path)) = some last := by
    rw [← Option.isSome_iff_exists, List.find?_isSome]
    exact ⟨path, List.mem_reverse.2 h, decide_eq_true rfl⟩
  obtain ⟨hname, after, before, hsplit, hafter⟩ := List.find?_eq_some_iff_append.1 hlast
  have hname := of_decide_eq_true hname
  refine ⟨before.reverse, last, after.reverse, ?_, hname, fun q hq => ?_⟩
  · simpa using congrArg List.reverse hsplit
  · simpa [hname] using hafter q (List.mem_reverse.1 hq)

/-- **The last document with a name is kept.** A run that succeeds leaves in its folder,
    for every name of a document, that of the last input with this name. So every input
    finds its own document there if and only if the inputs that share a name have the
    same one. -/
theorem last_document_kept {r : Request} {fs : FileSystem} {o : Outcome} {dir : String}
    {paths : List String} (hordered : fs.root.Ordered) (hrun : Runs r fs o)
    (hok : o.failure = none) (hdir : r.outDir = some dir)
    (hpaths : resolveInputs fs r.inputs = .ok paths) :
    (∀ before path after text, paths = before ++ path :: after →
      (∀ q ∈ after, targetName q ≠ targetName path) → r.text fs path = .ok text →
      o.system.read (Path.join dir (targetName path)) = .ok text) ∧
    ((∀ path ∈ paths, ∃ text, r.text fs path = .ok text ∧
        o.system.read (Path.join dir (targetName path)) = .ok text) ↔
      ∀ p ∈ paths, ∀ q ∈ paths, targetName p = targetName q → r.text fs p = r.text fs q) := by
  obtain rfl : o = r.sequential fs paths := by
    rw [runs_iff.1 hrun, Request.convert_eq hpaths]
  obtain ⟨hsaveAll, htexts⟩ := Request.sequential_success hok
  rw [hsaveAll] at hok ⊢
  have hlast : ∀ before path after text, paths = before ++ path :: after →
      (∀ q ∈ after, targetName q ≠ targetName path) → r.text fs path = .ok text →
      (r.saveAll { system := fs } (r.results fs paths)).system.read
        (Path.join dir (targetName path)) = .ok text := by
    rintro before path after text rfl hafter htext
    exact Request.read_saved hordered hdir hok hafter htext
  refine ⟨hlast, fun hkept p hp q hq hname => ?_, fun hsame path hpath => ?_⟩
  · obtain ⟨s, hs, hreadP⟩ := hkept p hp
    obtain ⟨t, ht, hreadQ⟩ := hkept q hq
    rw [hname, hreadQ] at hreadP
    rw [hs, ht, Except.ok.inj hreadP]
  · obtain ⟨text, htext⟩ := htexts path hpath
    obtain ⟨before, last, after, hsplit, hname, hafter⟩ := exists_last_target hpath
    have hmem : last ∈ paths := by rw [hsplit]; simp
    refine ⟨text, htext, hname ▸ hlast before last after text hsplit hafter ?_⟩
    rw [hsame last hmem path hpath hname, htext]

/-- A folder with two inputs that share the name of a document. -/
def sharedFolder : FileSystem := .ofFolder
  [("a", .folder [("x.ast.json", .file (some (packageValue "a").compact))]),
    ("b", .folder [("x.ast.json", .file (some (packageValue "b").compact))])]

/-- The request to write the documents of both into a folder. -/
def sharedRequest (dir : String) : Request :=
  { inputs := ["a/x.ast.json", "b/x.ast.json"], outDir := some dir, compact := true }

/-- The run succeeds, and the document of the first input is not there: neither below the
    working folder, nor at a path from the root, nor above the working folder. -/
theorem sharedRequest_runs :
    sharedFolder.root.Ordered ∧ packageText "a" ≠ packageText "b" ∧
    ∀ dir ∈ ["out", "/tmp/out", "../out"],
      resolveInputs sharedFolder (sharedRequest dir).inputs = .ok ["a/x.ast.json", "b/x.ast.json"] ∧
      (sharedRequest dir).text sharedFolder "a/x.ast.json" = .ok (packageText "a") ∧
      (∃ o, Runs (sharedRequest dir) sharedFolder o) ∧
      ∀ o, Runs (sharedRequest dir) sharedFolder o → o.failure = none ∧
        o.system.read (Path.join dir (targetName "a/x.ast.json")) = .ok (packageText "b") := by
  have hordered : sharedFolder.root.Ordered := by
    refine ⟨by simp, ⟨fun x hx => ?_, ⟨by simp, trivial, trivial⟩, by simp,
      ⟨by simp, trivial, trivial⟩, trivial⟩, trivial⟩
    obtain rfl := List.mem_singleton.1 hx
    exact (by decide : "a" < "b")
  have hdiffer : packageText "a" ≠ packageText "b" := by
    rw [packageText_eq, packageText_eq]
    decide
  refine ⟨hordered, hdiffer, fun dir hdir => ?_⟩
  have hpaths : resolveInputs sharedFolder (sharedRequest dir).inputs =
      .ok ["a/x.ast.json", "b/x.ast.json"] := rfl
  have ha : (sharedRequest dir).text sharedFolder "a/x.ast.json" = .ok (packageText "a") :=
    packageFile_text rfl rfl rfl rfl
  have hb : (sharedRequest dir).text sharedFolder "b/x.ast.json" = .ok (packageText "b") :=
    packageFile_text rfl rfl rfl rfl
  refine ⟨hpaths, ha, exists_ended _ _, fun o ho => ?_⟩
  have hfailure : o.failure = none := by
    rw [runs_iff.1 ho, Request.convert_eq hpaths, Request.sequential, Request.results]
    simp only [List.map_cons, List.map_nil, ha, hb]
    simp only [List.mem_cons, List.not_mem_nil, or_false] at hdir
    rcases hdir with rfl | rfl | rfl <;> rfl
  obtain ⟨hlast, -⟩ := last_document_kept hordered ho hfailure rfl hpaths
  exact ⟨hfailure, hlast ["a/x.ast.json"] "b/x.ast.json" [] _ rfl (by simp) hb⟩

end TreeDoc.Command
