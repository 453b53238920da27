/-
  What a change of a folder leaves alone.

  * `Folder.Ordered`: the entries of every folder stand in ascending order;
  * `Folder.Keeps`: files and folders are still there, but for files at given places;
  * `at?_updateAt`, `updateAt_keeps`: what changes when a file or folder is put
    somewhere, and what does not;
  * `Keeps.follow`: a way that leads to a place still leads there;
  * `makeFolders_keeps`, `write_success`: what the operations on paths change.
-/
import Mathlib.Data.List.Basic
import Mathlib.Data.String.Basic
import TreeDoc.Files.System
import TreeDoc.Proofs.Keys

namespace TreeDoc.Files

open Decode (bind_eq_ok map_eq_ok)

/-! ## Folders in order -/

mutual

/-- The entries of every folder below an entry stand in ascending order. -/
def Entry.Ordered : Entry → Prop
  | .file _ => True
  | .folder es => OrderedEntries es

/-- The entries stand in ascending order, and so do those of every folder below. -/
def OrderedEntries : List (String × Entry) → Prop
  | [] => True
  | (name, e) :: es => (∀ x ∈ es, name < x.1) ∧ e.Ordered ∧ OrderedEntries es

end

/-- The entries of every folder stand in ascending order. -/
def Folder.Ordered (f : Folder) : Prop := OrderedEntries f

namespace Folder

variable {f g : Folder} {name k : String} {change : Option Entry → Entry}

theorem get?_eq_none_of_lt {es : List (String × Entry)} (h : ∀ x ∈ es, name < x.1) :
    Assoc.get? name es = none := by
  induction es with
  | nil => rfl
  | cons e es ih =>
    obtain ⟨hlt, hrest⟩ := List.forall_mem_cons.1 h
    rw [Assoc.get?_cons_other (ne_of_gt hlt), ih hrest]

theorem get?_update_self (h : OrderedEntries f) :
    Assoc.get? name (f.update name change) = some (change (Assoc.get? name f)) := by
  induction f with
  | nil => simp [update, Assoc.get?]
  | cons e f ih =>
    obtain ⟨k, e⟩ := e
    obtain ⟨hlt, -, hf⟩ := h
    rw [update]
    split_ifs with hk hname
    · rw [hk, Assoc.get?_cons_self, Assoc.get?_cons_self]
    · -- the name would stand before all others
      rw [Assoc.get?_cons_self, Assoc.get?_cons_other hk,
        get?_eq_none_of_lt fun x hx => hname.trans (hlt x hx)]
    · rw [Assoc.get?_cons_other hk, Assoc.get?_cons_other hk, ih hf]

theorem get?_update_other (h : k ≠ name) :
    Assoc.get? k (f.update name change) = Assoc.get? k f := by
  induction f with
  | nil => rw [update, Assoc.get?_cons_other h.symm]
  | cons e f ih =>
    obtain ⟨l, e⟩ := e
    rw [update]
    split_ifs with hl hname
    · subst hl
      rw [Assoc.get?_cons_other h.symm, Assoc.get?_cons_other h.symm]
    · rw [Assoc.get?_cons_other h.symm]
    · rw [Assoc.get?, Assoc.get?, ih]

theorem mem_update {x : String × Entry} (h : x ∈ f.update name change) :
    x.1 = name ∨ ∃ y ∈ f, y.1 = x.1 := by
  induction f with
  | nil =>
    rw [update, List.mem_singleton] at h
    exact .inl (by rw [h])
  | cons e f ih =>
    obtain ⟨l, e⟩ := e
    rw [update] at h
    split_ifs at h with hl hname
    · rcases List.mem_cons.1 h with rfl | h
      · exact .inl hl
      · exact .inr ⟨x, List.mem_cons_of_mem _ h, rfl⟩
    · rcases List.mem_cons.1 h with rfl | h
      · exact .inl rfl
      · exact .inr ⟨x, h, rfl⟩
    · rcases List.mem_cons.1 h with rfl | h
      · exact .inr ⟨_, List.mem_cons_self, rfl⟩
      · rcases ih h with h | ⟨y, hy, hyx⟩
        · exact .inl h
        · exact .inr ⟨y, List.mem_cons_of_mem _ hy, hyx⟩

theorem ordered_update (hf : OrderedEntries f)
    (hchange : (∀ e, Assoc.get? name f = some e → e.Ordered) →
      (change (Assoc.get? name f)).Ordered) : OrderedEntries (f.update name change) := by
  induction f with
  | nil => exact ⟨by simp, hchange (by simp [Assoc.get?]), trivial⟩
  | cons e f ih =>
    obtain ⟨k, e⟩ := e
    obtain ⟨hlt, he, hrest⟩ := hf
    rw [update]
    split_ifs with hk hname
    · subst hk
      rw [Assoc.get?_cons_self] at hchange
      exact ⟨hlt, hchange fun e' h => Option.some.inj h ▸ he, hrest⟩
    · have hnone : Assoc.get? name ((k, e) :: f) = none := by
        rw [Assoc.get?_cons_other hk, get?_eq_none_of_lt fun x hx => hname.trans (hlt x hx)]
      rw [hnone] at hchange
      refine ⟨fun x hx => ?_, hchange (by simp), hlt, he, hrest⟩
      rcases List.mem_cons.1 hx with rfl | hx
      · exact hname
      · exact hname.trans (hlt x hx)
    · rw [Assoc.get?_cons_other hk] at hchange
      refine ⟨fun x hx => ?_, he, ih hrest hchange⟩
      rcases mem_update hx with h | ⟨y, hy, hyx⟩
      · rw [h]
        exact lt_of_le_of_ne (not_lt.1 hname) hk
      · exact hyx ▸ hlt y hy

theorem ordered_of_get? (hf : OrderedEntries f) {e : Entry} (h : Assoc.get? name f = some e) :
    e.Ordered := by
  induction f with
  | nil => cases h
  | cons x f ih =>
    obtain ⟨k, x⟩ := x
    obtain ⟨-, hx, hrest⟩ := hf
    by_cases hk : k = name
    · subst hk
      rw [Assoc.get?_cons_self] at h
      exact Option.some.inj h ▸ hx
    · rw [Assoc.get?_cons_other hk] at h
      exact ih hrest h

/-! ## What names lead to -/

theorem at?_cons_folder {es : Folder} (h : Assoc.get? name f = some (.folder es))
    (names : List String) : f.at? (name :: names) = es.at? names := by
  rw [at?, h]

theorem at?_cons_congr (h : Assoc.get? name g = Assoc.get? name f) (names : List String) :
    g.at? (name :: names) = f.at? (name :: names) := by
  rw [at?, at?, h]

/-- A name that is no folder leads to itself only. -/
theorem at?_cons_of_not_folder (h : ∀ es, Assoc.get? name f ≠ some (.folder es))
    {names : List String} {e : Entry} (he : f.at? (name :: names) = some e) :
    names = [] ∧ ∃ t, e = .file t := by
  rw [at?] at he
  cases hget : Assoc.get? name f with
  | none => simp [hget] at he
  | some x =>
    cases x with
    | folder es => exact absurd hget (h es)
    | file t =>
      simp only [hget] at he
      split_ifs at he with hnames
      exact ⟨hnames, t, (Option.some.inj he).symm⟩

theorem at?_singleton : f.at? [name] = Assoc.get? name f := by
  rw [at?]
  cases Assoc.get? name f with
  | none => rfl
  | some e => cases e <;> rfl

/-- The last name is one of the folder that the others lead to. -/
theorem at?_concat {names : List String} {e : Entry} :
    f.at? (names ++ [name]) = some e ↔
      ∃ es, f.at? names = some (.folder es) ∧ Assoc.get? name es = some e := by
  induction names generalizing f with
  | nil =>
    rw [List.nil_append, at?_singleton]
    simp [at?]
  | cons k names ih =>
    cases hget : Assoc.get? k f with
    | none => simp [at?, hget]
    | some x =>
      cases x with
      | folder fs => rw [List.cons_append, at?_cons_folder hget, at?_cons_folder hget, ih]
      | file t => simp [at?, hget]

/-! ## Changed trees -/

/-- **Files and folders are still there.** A tree has all files of another one, but for
    those at given places, and all folders with all their names. -/
structure Keeps (changed : List String → Prop) (f g : Folder) : Prop where
  file : ∀ {names t}, ¬changed names → f.at? names = some (.file t) →
    g.at? names = some (.file t)
  folder : ∀ {names es}, f.at? names = some (.folder es) →
    ∃ es', g.at? names = some (.folder es') ∧
      ∀ n, (Assoc.get? n es).isSome → (Assoc.get? n es').isSome

theorem Keeps.refl (changed : List String → Prop) (f : Folder) : Keeps changed f f :=
  ⟨fun _ h => h, fun h => ⟨_, h, fun _ => id⟩⟩

theorem Keeps.trans {changed : List String → Prop} {h : Folder} (hfg : Keeps changed f g)
    (hgh : Keeps changed g h) : Keeps changed f h where
  file hc hf := hgh.file hc (hfg.file hc hf)
  folder hf := by
    obtain ⟨es, hg, hnames⟩ := hfg.folder hf
    obtain ⟨es', hh, hnames'⟩ := hgh.folder hg
    exact ⟨es', hh, fun n hn => hnames' n (hnames n hn)⟩

theorem Keeps.mono {P Q : List String → Prop} (hPQ : ∀ names, P names → Q names)
    (h : Keeps P f g) : Keeps Q f g :=
  ⟨fun hc => h.file fun hp => hc (hPQ _ hp), h.folder⟩

/-- Trees that differ under one name only are compared there. -/
theorem Keeps.of_name {changed : List String → Prop}
    (hother : ∀ l, l ≠ k → Assoc.get? l g = Assoc.get? l f) (hself : (Assoc.get? k g).isSome)
    (hfile : ∀ ms t, ¬changed (k :: ms) → f.at? (k :: ms) = some (.file t) →
      g.at? (k :: ms) = some (.file t))
    (hfolder : ∀ ms es, f.at? (k :: ms) = some (.folder es) →
      ∃ es', g.at? (k :: ms) = some (.folder es') ∧
        ∀ n, (Assoc.get? n es).isSome → (Assoc.get? n es').isSome) : Keeps changed f g where
  file {names t} hc hf := by
    cases names with
    | nil => simp [at?] at hf
    | cons m ms =>
      by_cases hm : m = k
      · subst hm
        exact hfile ms t hc hf
      · rw [at?_cons_congr (hother m hm), hf]
  folder {names es} hf := by
    cases names with
    | nil =>
      obtain rfl : f = es := by simpa [at?] using hf
      refine ⟨g, rfl, fun n hn => ?_⟩
      by_cases hn' : n = k
      · rwa [hn']
      · rwa [hother n hn']
    | cons m ms =>
      by_cases hm : m = k
      · subst hm
        exact hfolder ms es hf
      · exact ⟨es, by rw [at?_cons_congr (hother m hm), hf], fun _ => id⟩

theorem at?_cons_eq_folder {names : List String} {es : Folder} :
    f.at? (k :: names) = some (.folder es) ↔
      ∃ fs : Folder, Assoc.get? k f = some (.folder fs) ∧ fs.at? names = some (.folder es) := by
  rw [at?]
  cases Assoc.get? k f with
  | none => simp
  | some x =>
    cases x with
    | folder fs => simp
    | file t => simp

theorem get?_updateAt_other {l : String} (h : l ≠ k) (names : List String) :
    Assoc.get? l (f.updateAt change (k :: names)) = Assoc.get? l f := by
  cases names <;> exact get?_update_other h

/-- A change behind a first name is a change in the folder of this name. -/
theorem updateAt_cons_concat (f : Folder) (names : List String) :
    f.updateAt change (k :: (names ++ [name])) = f.update k fun e =>
      .folder (updateAt change (names ++ [name]) ((e.map Entry.contents).getD [])) := by
  cases names <;> rfl

theorem get?_updateAt_self {names : List String} {fs : Folder} (hf : f.Ordered)
    (h : Assoc.get? k f = some (.folder fs)) :
    Assoc.get? k (f.updateAt change (k :: (names ++ [name]))) =
      some (.folder (fs.updateAt change (names ++ [name]))) := by
  rw [updateAt_cons_concat, get?_update_self hf, h]
  rfl

section
variable {names : List String} {es : Folder} {e : Entry}

/-- **What is put somewhere** is found there. -/
theorem at?_updateAt (hf : f.Ordered) (h : f.at? names = some (.folder es)) :
    Folder.at? (names ++ [name]) (f.updateAt (fun _ => e) (names ++ [name])) = some e := by
  induction names generalizing f with
  | nil => rw [List.nil_append, updateAt, at?_singleton, get?_update_self hf]
  | cons k names ih =>
    obtain ⟨fs, hget, hfs⟩ := at?_cons_eq_folder.1 h
    rw [List.cons_append, at?_cons_folder (get?_updateAt_self hf hget),
      ih (ordered_of_get? hf hget) hfs]

theorem ordered_updateAt (hf : f.Ordered) (he : e.Ordered)
    (h : f.at? names = some (.folder es)) :
    (f.updateAt (fun _ => e) (names ++ [name])).Ordered := by
  induction names generalizing f with
  | nil => exact ordered_update hf fun _ => he
  | cons k names ih =>
    obtain ⟨fs, hget, hfs⟩ := at?_cons_eq_folder.1 h
    rw [List.cons_append, updateAt_cons_concat]
    refine ordered_update hf fun _ => ?_
    rw [hget]
    exact ih (ordered_of_get? hf hget) hfs

/-- **All else is still there** when something is put where no folder is. -/
theorem updateAt_keeps (hf : f.Ordered) (h : f.at? names = some (.folder es))
    (hname : ∀ es', Assoc.get? name es ≠ some (.folder es')) :
    Keeps (· = names ++ [name]) f (f.updateAt (fun _ => e) (names ++ [name])) := by
  induction names generalizing f with
  | nil =>
    obtain rfl : f = es := by simpa [at?] using h
    refine .of_name (fun l hl => get?_updateAt_other hl []) ?_ ?_ ?_
    · rw [List.nil_append, updateAt, get?_update_self hf]
      rfl
    · intro ms t hms hfile
      obtain ⟨rfl, -⟩ := at?_cons_of_not_folder hname hfile
      exact absurd rfl hms
    · intro ms es' hfolder
      obtain ⟨-, t, ht⟩ := at?_cons_of_not_folder hname hfolder
      cases ht
  | cons k names ih =>
    obtain ⟨fs, hget, hfs⟩ := at?_cons_eq_folder.1 h
    have hself : Assoc.get? k (f.updateAt (fun _ => e) (k :: (names ++ [name]))) =
        some (.folder (fs.updateAt (fun _ => e) (names ++ [name]))) := get?_updateAt_self hf hget
    have hkeeps := ih (ordered_of_get? hf hget) hfs
    rw [List.cons_append]
    refine .of_name (fun l hl => get?_updateAt_other hl _) (by rw [hself]; rfl) ?_ ?_
    · intro ms t hms hfile
      rw [at?_cons_folder hget] at hfile
      rw [at?_cons_folder hself]
      exact hkeeps.file (fun hms' => hms (by rw [hms'])) hfile
    · intro ms es' hfolder
      rw [at?_cons_folder hget] at hfolder
      rw [at?_cons_folder hself]
      exact hkeeps.folder hfolder

end

/-! ## Ways -/

variable {place next start : Place} {es : Folder}

theorem contents_eq_ok : f.contents place = .ok es ↔ f.at? place = some (.folder es) := by
  rw [contents]
  cases f.at? place with
  | none => simp
  | some e => cases e <;> simp

section
variable {changed : List String → Prop}

theorem Keeps.contents (h : Keeps changed f g) (hes : f.contents place = .ok es) :
    ∃ es', g.contents place = .ok es' ∧
      ∀ n, (Assoc.get? n es).isSome → (Assoc.get? n es').isSome := by
  obtain ⟨es', hg, hnames⟩ := h.folder (contents_eq_ok.1 hes)
  exact ⟨es', contents_eq_ok.2 hg, hnames⟩

theorem Keeps.step (h : Keeps changed f g) {piece : String}
    (hstep : f.step place piece = .ok next) :
    g.step place piece = .ok next := by
  rw [Folder.step, bind_eq_ok] at hstep ⊢
  obtain ⟨es, hes, hnext⟩ := hstep
  obtain ⟨es', hes', hnames⟩ := h.contents hes
  refine ⟨es', hes', ?_⟩
  split_ifs at hnext ⊢ with hstay hup
  · exact hnext
  · exact hnext
  · cases hget : Assoc.get? piece es with
    | none => simp [hget] at hnext
    | some e =>
      obtain ⟨e', he'⟩ := Option.isSome_iff_exists.1 (hnames piece (by rw [hget]; rfl))
      simpa [hget, he'] using hnext

/-- A way that leads to a place still leads there. -/
theorem Keeps.follow (h : Keeps changed f g) {pieces : List String}
    (hfollow : f.follow place pieces = .ok next) : g.follow place pieces = .ok next := by
  induction pieces generalizing place with
  | nil => exact hfollow
  | cons piece pieces ih =>
    rw [Folder.follow, bind_eq_ok] at hfollow ⊢
    obtain ⟨mid, hstep, hrest⟩ := hfollow
    exact ⟨mid, h.step hstep, ih hrest⟩

end

theorem follow_append {as bs : List String} :
    f.follow place (as ++ bs) = .ok next ↔
      ∃ mid, f.follow place as = .ok mid ∧ f.follow mid bs = .ok next := by
  induction as generalizing place with
  | nil => simp [Folder.follow]
  | cons a as ih =>
    rw [List.cons_append, Folder.follow, Folder.follow, bind_eq_ok]
    constructor
    · rintro ⟨p, hp, hrest⟩
      obtain ⟨mid, hmid, hbs⟩ := ih.1 hrest
      exact ⟨mid, bind_eq_ok.2 ⟨p, hp, hmid⟩, hbs⟩
    · rintro ⟨mid, hmid, hbs⟩
      obtain ⟨p, hp, hrest⟩ := bind_eq_ok.1 hmid
      exact ⟨p, hp, ih.2 ⟨mid, hrest, hbs⟩⟩

theorem follow_singleton {piece : String} : f.follow place [piece] = f.step place piece := by
  rw [Folder.follow]
  cases f.step place piece <;> rfl

theorem locate_eq_ok {pieces : List String} :
    f.locate start pieces = .ok (es, place, name) ↔ ∃ before, pieces = before ++ [name] ∧
      f.follow start before = .ok place ∧ f.contents place = .ok es := by
  rcases List.eq_nil_or_concat' pieces with rfl | ⟨before, last, rfl⟩
  · simp [locate]
  · simp only [locate, List.getLast?_concat, List.dropLast_concat, bind_eq_ok]
    constructor
    · rintro ⟨p, hp, es', hes, heq⟩
      obtain ⟨rfl, rfl, rfl⟩ : es' = es ∧ p = place ∧ last = name := by
        simpa using Except.ok.inj heq
      exact ⟨before, rfl, hp, hes⟩
    · rintro ⟨before', heq, hp, hes⟩
      obtain ⟨rfl, hlast⟩ := List.append_inj' heq rfl
      obtain rfl := List.singleton_inj.1 hlast
      exact ⟨place, hp, es, hes, rfl⟩

/-! ## Operations -/

/-- **Making a folder** adds one where there was nothing. -/
theorem makeFolder_keeps {pieces : List String} (hf : f.Ordered)
    (h : f.makeFolder start pieces = .ok g) : g.Ordered ∧ Keeps (fun _ => False) f g := by
  obtain ⟨⟨es, place, name⟩, hlocate, h⟩ := bind_eq_ok.1 h
  obtain ⟨before, -, -, hes⟩ := locate_eq_ok.1 hlocate
  simp only at h
  split_ifs at h with hexists
  obtain rfl := Except.ok.inj h
  have hfolder := contents_eq_ok.1 hes
  have hnone : Assoc.get? name es = none := by
    simp only [not_or, Option.not_isSome_iff_eq_none] at hexists
    exact hexists.2.2
  refine ⟨ordered_updateAt hf trivial hfolder, ?_⟩
  have hkeeps : Keeps (· = place ++ [name]) f
      (f.updateAt (fun _ => .folder []) (place ++ [name])) :=
    updateAt_keeps hf hfolder (by simp [hnone])
  refine ⟨fun {ms t} _ hfile => hkeeps.file ?_ hfile, hkeeps.folder⟩
  rintro rfl
  obtain ⟨es', hes', hget⟩ := at?_concat.1 hfile
  obtain rfl : es = es' := by simpa [hfolder] using hes'
  rw [hnone] at hget
  cases hget

theorem ensureFolder_keeps {pieces : List String} (hf : f.Ordered)
    (h : f.ensureFolder start pieces = .ok g) : g.Ordered ∧ Keeps (fun _ => False) f g := by
  rw [ensureFolder] at h
  cases hmake : f.makeFolder start pieces with
  | ok f' =>
    simp only [hmake, Except.ok.injEq] at h
    exact h ▸ makeFolder_keeps hf hmake
  | error e =>
    simp only [hmake] at h
    split_ifs at h
    obtain rfl := Except.ok.inj h
    exact ⟨hf, .refl _ f⟩

theorem makeChain_keeps {chain : List (List String)} (hf : f.Ordered)
    (h : f.makeChain start chain = .ok g) : g.Ordered ∧ Keeps (fun _ => False) f g := by
  induction chain generalizing f g with
  | nil =>
    obtain rfl := Except.ok.inj h
    exact ⟨hf, .refl _ f⟩
  | cons pieces shorter ih =>
    rw [makeChain] at h
    split at h
    · next f' hensure =>
      obtain rfl := Except.ok.inj h
      exact ensureFolder_keeps hf hensure
    · obtain ⟨f', hchain, hensure⟩ := bind_eq_ok.1 h
      obtain ⟨hf', hkeeps⟩ := ih hf hchain
      obtain ⟨hg, hkeeps'⟩ := ensureFolder_keeps hf' hensure
      exact ⟨hg, hkeeps.trans hkeeps'⟩
    · cases h

end Folder

namespace FileSystem

variable {fs fs' : FileSystem} {path text : String}

/-- **Making folders** changes no file. -/
theorem makeFolders_keeps (hfs : fs.root.Ordered) (h : fs.makeFolders path = .ok fs') :
    fs'.working = fs.working ∧ fs'.root.Ordered ∧
      Folder.Keeps (fun _ => False) fs.root fs'.root := by
  rw [makeFolders] at h
  split_ifs at h
  · obtain rfl := Except.ok.inj h
    exact ⟨rfl, hfs, .refl _ _⟩
  · obtain ⟨root, hchain, rfl⟩ := map_eq_ok.1 h
    exact ⟨rfl, Folder.makeChain_keeps hfs hchain⟩

/-- **Writing a file.** The pieces before the last lead to a folder, in which the last is
    no folder, and the file is put there. -/
theorem write_success {before : List String} {name : String} (h : fs.write path text = .ok fs')
    (hpieces : Path.pieces path = before ++ [name]) :
    ∃ place es, fs.root.follow (fs.start path) before = .ok place ∧
      fs.root.contents place = .ok es ∧ (∀ es', Assoc.get? name es ≠ some (.folder es')) ∧
      fs' = { fs with
        root := fs.root.updateAt (fun _ => .file (some text)) (place ++ [name]) } := by
  rw [write] at h
  split_ifs at h with hempty
  · cases h
  obtain ⟨⟨es, place, last⟩, hlocate, h⟩ := bind_eq_ok.1 h
  obtain ⟨before', hpieces', hfollow, hes⟩ := Folder.locate_eq_ok.1 hlocate
  obtain ⟨rfl, hlast⟩ := List.append_inj' (hpieces.symm.trans hpieces') rfl
  obtain rfl := List.singleton_inj.1 hlast
  refine ⟨place, es, hfollow, hes, ?_⟩
  simp only at h
  by_cases hname : name = ""
  · rw [if_pos hname] at h
    cases h
  rw [if_neg hname] at h
  split at h
  · cases h
  · next hfolder =>
    refine ⟨hfolder, ?_⟩
    split_ifs at h
    exact (Except.ok.inj h).symm

end FileSystem

end TreeDoc.Files
