import SoreOS.Spec.Listing
import Mathlib.Data.List.DropRight
import Mathlib.Data.List.Pairwise

/-!
# Finding a file

`findFile` on a directory of live files, none of whose names is another's. It finds
the files by the names that `listFiles` prints, and no file by a name it does not
have, exactly if the names of the files avoid the ones that `getShortName` changes.

## Key results

- `findRecord_holds`: the search ends at the first file that answers
- `findFile_correct_iff`: when the search is right, for all files and all queries
- `findFile_not_correct`: a file that is not found by the name that is printed
-/

namespace SoreOS

open ForStd

/-! ## The names of a file -/

/-- The 8.3 name that a raw short name stands for. -/
def display (raw : List UInt8) : List UInt8 :=
  let base := (raw.take 8).rdropWhile (· = SPACE)
  let ext := (raw.drop 8).rdropWhile (· = SPACE)
  if ext = [] then base else base ++ DOT :: ext

/-- The names of a file: its long name, its raw short name and that name for display. -/
def LiveFile.names (f : LiveFile) : List (List UInt8) :=
  (if f.long = [] then [] else [f.long]) ++ [f.raw, display f.raw]

/-- No file has a name of another one. -/
def DistinctNames (es : List Entry) : Prop :=
  (liveFiles es).Pairwise fun f g => ∀ name ∈ f.names, name ∉ g.names

/-- The start cluster of a file; cluster 0 of a directory means the root directory. -/
def LiveFile.start (f : LiveFile) (root : Int) : Int :=
  if f.directory = true ∧ f.cluster = 0 then root else toInt f.cluster.toNat

def LiveFile.type (f : LiveFile) : UInt8 := if f.directory = true then FTYPE_DIRECTORY else FTYPE_FILE

theorem LiveFile.long_mem_names {f : LiveFile} (h : f.long ≠ []) : f.long ∈ f.names := by
  rw [names, if_neg h]
  exact List.mem_cons_self

theorem LiveFile.raw_mem_names (f : LiveFile) : f.raw ∈ f.names := by simp [names]

theorem LiveFile.display_mem_names (f : LiveFile) : display f.raw ∈ f.names := by simp [names]

theorem LiveFile.mem_names {f : LiveFile} {name : List UInt8} (h : name ∈ f.names) :
    (f.long ≠ [] ∧ name = f.long) ∨ name = f.raw ∨ name = display f.raw := by
  unfold names at h
  split at h
  · exact .inr (by simpa using h)
  · rename_i hlong
    simpa [hlong] using h

theorem Plain.facts {name : List UInt8} (h : Plain name) : SPACE ∉ name ∧ name.length ≤ 8 := by
  obtain rfl | rfl | ⟨hupper, hlen⟩ := h
  · exact ⟨by decide, by decide⟩
  · exact ⟨by decide, by decide⟩
  · exact ⟨hupper.space_not_mem, hlen⟩

/-- Without blanks at its end, a name is what is left in front of padding. -/
private theorem rdropWhile_padded {name : List UInt8} (h : SPACE ∉ name) (n : Nat) :
    (name ++ List.replicate n SPACE).rdropWhile (· = SPACE) = name := by
  rw [List.rdropWhile, List.reverse_append, List.reverse_replicate,
    List.dropWhile_append_of_pos fun c hc => by simp [List.eq_of_mem_replicate hc]]
  have hrev : name.reverse.dropWhile (· = SPACE) = name.reverse := by
    cases hname : name.reverse with
    | nil => rfl
    | cons c cs =>
      rw [List.dropWhile_cons_of_neg]
      have hc : c ∈ name := List.mem_reverse.mp (hname ▸ List.mem_cons_self)
      rw [decide_eq_true_eq]
      rintro rfl
      exact h hc
  rw [hrev, List.reverse_reverse]

/-- A padded plain name is displayed as itself. -/
theorem display_pad11 {name : List UInt8} (h : Plain name) : display (pad11 name) = name := by
  obtain ⟨hspace, hlen⟩ := h.facts
  have htake : (pad11 name).take 8 = name ++ List.replicate (8 - name.length) SPACE := by
    rw [pad11, List.take_append, List.take_of_length_le hlen, List.take_replicate]
    congr 2
    omega
  have hdrop : (pad11 name).drop 8 = [] ++ List.replicate 3 SPACE := by
    rw [pad11, List.drop_append, List.drop_of_length_le hlen, List.drop_replicate]
    congr 2
    omega
  rw [display, htake, hdrop, rdropWhile_padded hspace, rdropWhile_padded List.not_mem_nil]
  rfl

/-! ## The search -/

/-- A file answers to a search term. -/
def Answers (f : LiveFile) (term : List UInt8) : Prop := f.raw = term ∨ (f.long ≠ [] ∧ f.long = term)

instance (f : LiveFile) (term : List UInt8) : Decidable (Answers f term) :=
  inferInstanceAs (Decidable (_ ∨ _))

theorem nameMatches_eq {r : Bytes} {f : LiveFile} (h : IsShort r f) {term : List UInt8}
    (hterm : 0 ∉ term) : nameMatches term r f.long = decide (Answers f term) := by
  have hraw := strcmp_eq_zero_iff f.raw_chars hterm
  have hlong := strcmp_eq_zero_iff f.long_chars hterm
  rw [nameMatches, h.shortName, Bool.eq_iff_iff, decide_eq_true_iff, Answers]
  simp [hraw, hlong]

/-- The visits of a search end at the first file that answers. -/
theorem visitFiles_findVisit {term : List UInt8} (hterm : 0 ∉ term) {files : List (Nat × LiveFile)}
    {s : FsState} (h : ∀ p ∈ files, IsShort (subBuffer s.ClusterBuffer (32 * p.1)) p.2) :
    visitFiles (findVisit term) files s =
      ((files.find? fun p => Answers p.2 term).map fun p => 32 * (p.1 : Int), s) := by
  induction files with
  | nil => rfl
  | cons p files ih =>
    obtain ⟨k, f⟩ := p
    rw [visitFiles, findVisit, nameMatches_eq (h (k, f) List.mem_cons_self) hterm]
    by_cases hf : Answers f term
    · rw [if_pos (decide_eq_true hf), List.find?_cons, decide_eq_true hf]
      rfl
    · rw [if_neg (by simpa using hf), List.find?_cons, decide_eq_false hf]
      exact ih fun p hp => h p (List.mem_cons_of_mem _ hp)

/-- The start cluster in a record, as the driver puts it together. -/
theorem IsShort.recordCluster {r : Bytes} {f : LiveFile} (h : IsShort r f) :
    recordCluster r = toInt f.cluster.toNat := by
  have hhi := (readDW r 0x14).toNat_lt
  have hlo := (readDW r 0x1A).toNat_lt
  unfold SoreOS.recordCluster
  rw [UInt32.toNat_or, UInt32.toNat_shiftLeft, UInt16.toNat_toUInt32, UInt16.toNat_toUInt32, ← h.cluster,
    show (UInt32.toNat 16 % 32) = 16 from rfl, Nat.mod_eq_of_lt (by rw [Nat.shiftLeft_eq]; omega),
    ← Nat.shiftLeft_add_eq_or_of_lt hlo, Nat.shiftLeft_eq]

/-- Filling a file from its record: cluster 0 stands for the root directory, also in the
    record of a file that is none. -/
theorem fillFile_holds (d : Drive) (s : FsState) {r : Bytes} {f : LiveFile} (h : IsShort r f)
    (file : File) : ∃ file' t, fillFile d s r file = .ok (file', t) ∧ FatFrame s t ∧
      file'.type = f.type ∧
      file'.size = toInt f.size.toNat ∧ file'.clusters 0 =
        if f.cluster = 0 then toInt s.fileSys.A_BF_BPB_RootDirStrtClus.toNat
        else toInt f.cluster.toNat := by
  obtain ⟨file', t, hfill, hframe, htype, hsize, hcluster⟩ := fillFile_returns d s r file
  refine ⟨file', t, hfill, hframe, ?_, by rw [hsize, h.size], ?_⟩
  · rw [htype, LiveFile.type, if_congr h.directory rfl rfl]
  · rw [hcluster, h.recordCluster, if_congr toInt_toNat_eq_zero rfl rfl]

section Search

variable {d : Drive} {s t : FsState} {es : List Entry}

/-- The search ends at the first file that answers to the search term. -/
theorem findRecord_holds (h : DirectoryLoads d s t es) {q : List UInt8} (hlen : q.length ≤ 104)
    (hq : 0 ∉ q) : findRecord d s q =
      .ok (((placed 0 es).find? fun p => Answers p.2 (searchTerm q)).map fun p => 32 * (p.1 : Int), t) := by
  rw [findRecord, if_neg (by omega), scan_holds (findVisit_quiet _) h, visitFiles_findVisit (zero_not_mem_searchTerm hq) h.holds.isShort]

/-- `findFile` finds a file by a name: it returns 0 and fills its start cluster, size and
    type. -/
def FindsFile (d : Drive) (s : FsState) (root : Int) (q : List UInt8) (f : LiveFile) : Prop :=
  ∀ file, ∃ file' u, findFile d s q file = .ok (0, file', u) ∧ file'.clusters 0 = f.start root ∧
    file'.size = toInt f.size.toNat ∧ file'.type = f.type

/-- A search ends only at the record of a file that has the name searched for. -/
def OpensNamed (d : Drive) (s : FsState) (es : List Entry) : Prop :=
  ∀ q : List UInt8, 0 ∉ q → ∀ off u, findRecord d s q = .ok (some off, u) →
    ∃ p ∈ placed 0 es, off = 32 * (p.1 : Int) ∧ q ∈ p.2.names

/-- The names of the files avoid the ones that `getShortName` changes: a name that it
    pads to a short name is displayed by its file, no printed name loses its base, and
    no long name is what is left of such a name. -/
structure NamesOk (es : List Entry) (root : UInt32) : Prop where
  printed : ∀ f ∈ liveFiles es, ¬ ∃ base ext, Dotted f.printed base ext
  ext : ∀ f ∈ liveFiles es, Upper f.long → 1 ≤ f.long.length → 2 < f.long.length
  plain : ∀ f ∈ liveFiles es, f.long ≠ [] → Plain f.long → f.raw = pad11 f.long
  padded : ∀ f ∈ liveFiles es, ∀ q, Plain q → f.long = pad11 q → display f.raw = q
  cluster : ∀ f ∈ liveFiles es, f.directory = true ∨ f.cluster ≠ 0 ∨ root = 0

/-! ### Files and their names -/

theorem mem_liveFiles {f : LiveFile} : f ∈ liveFiles es ↔ ∃ k, (k, f) ∈ placed 0 es := by
  rw [← map_placed 0 es, List.mem_map]
  constructor
  · intro h
    obtain ⟨⟨k, g⟩, hmem, rfl⟩ := h
    exact ⟨k, hmem⟩
  · intro h
    obtain ⟨k, hmem⟩ := h
    exact ⟨(k, f), hmem, rfl⟩

theorem placed_le {k : Nat} : ∀ p ∈ placed k es, k ≤ p.1 := by
  induction es generalizing k with
  | nil => exact fun p hp => absurd hp List.not_mem_nil
  | cons e es ih =>
    intro p hp
    cases e with
    | deleted =>
      have := ih p hp
      omega
    | live f =>
      obtain rfl | hp := List.mem_cons.mp hp
      · exact Nat.le_add_right k _
      · have := ih p hp
        omega

/-- A record belongs to one file only. -/
theorem placed_inj {k : Nat} {p p' : Nat × LiveFile} (hp : p ∈ placed k es) (hp' : p' ∈ placed k es)
    (h : p.1 = p'.1) : p = p' := by
  induction es generalizing k with
  | nil => exact absurd hp List.not_mem_nil
  | cons e es ih =>
    cases e with
    | deleted => exact ih hp hp'
    | live f =>
      obtain rfl | hp := List.mem_cons.mp hp
      · obtain rfl | hp' := List.mem_cons.mp hp'
        · rfl
        · have := placed_le p' hp'
          omega
      · obtain rfl | hp' := List.mem_cons.mp hp'
        · have := placed_le p hp
          omega
        · exact ih hp hp'

/-- A name belongs to one file only. -/
theorem DistinctNames.unique (hd : DistinctNames es) {p p' : Nat × LiveFile} (hp : p ∈ placed 0 es)
    (hp' : p' ∈ placed 0 es) {name : List UInt8} (h : name ∈ p.2.names) (h' : name ∈ p'.2.names) :
    p = p' := by
  unfold DistinctNames at hd
  rw [← map_placed 0 es, List.pairwise_map] at hd
  by_contra hne
  have : Std.Symm fun a b : Nat × LiveFile => ∀ name ∈ a.2.names, name ∉ b.2.names :=
    ⟨fun a b hab name hb ha => hab name ha hb⟩
  exact hd.forall hp hp' hne name h h'

theorem Answers.mem_names {f : LiveFile} {term : List UInt8} (h : Answers f term) :
    term ∈ f.names := by
  obtain rfl | ⟨hne, rfl⟩ := h
  · exact f.raw_mem_names
  · exact LiveFile.long_mem_names hne

/-- The file that answers is the only one, and the search ends at it. -/
theorem find?_answers (hd : DistinctNames es) {p : Nat × LiveFile} (hp : p ∈ placed 0 es)
    {term : List UInt8} (h : Answers p.2 term) :
    ((placed 0 es).find? fun p => Answers p.2 term) = some p := by
  cases hfind : (placed 0 es).find? fun p => Answers p.2 term with
  | none =>
    have := List.find?_eq_none.mp hfind p hp
    exact absurd (decide_eq_true h) this
  | some p' =>
    have hanswers : Answers p'.2 term := by simpa using List.find?_some hfind
    rw [hd.unique (List.mem_of_find?_eq_some hfind) hp hanswers.mem_names h.mem_names]

theorem LiveFile.printed_facts (f : LiveFile) : f.printed.length ≤ 104 ∧ 0 ∉ f.printed := by
  unfold printed
  split
  · exact ⟨by rw [f.raw_length]; omega, f.raw_chars⟩
  · exact ⟨f.long_length, f.long_chars⟩

/-- What is searched for. -/
theorem searchTerm_cases (q : List UInt8) : (Plain q ∧ searchTerm q = pad11 q) ∨
    (∃ base ext, Dotted q base ext ∧ searchTerm q = ext) ∨
    ((¬ ∃ base ext, Dotted q base ext) ∧ searchTerm q = q) := by
  by_cases hplain : Plain q
  · exact .inl ⟨hplain, searchTerm_plain hplain⟩
  · by_cases hdotted : ∃ base ext, Dotted q base ext
    · obtain ⟨base, ext, h⟩ := hdotted
      exact .inr (.inl ⟨base, ext, h, searchTerm_dotted h⟩)
    · exact .inr (.inr ⟨hdotted, searchTerm_other hplain hdotted⟩)

/-- A file whose short name is a padded plain name is displayed by that name. -/
theorem display_mem_names {f : LiveFile} {q : List UInt8} (hq : Plain q) (h : f.raw = pad11 q) :
    q ∈ f.names := by
  rw [← display_pad11 hq, ← h]
  exact f.display_mem_names

/-- A file answers to an extension only by its long name. -/
theorem Answers.ext {f : LiveFile} {q base ext : List UInt8} (h : Answers f ext)
    (hq : Dotted q base ext) : f.long = ext ∧ ext ≠ [] := by
  obtain hraw | ⟨hne, hlong⟩ := h
  · have := hq.ext_length
    rw [← hraw, f.raw_length] at this
    omega
  · exact ⟨hlong, hlong ▸ hne⟩

/-! ### Names that are all right -/

/-- A file answers to what its printed name is searched by. -/
theorem answers_printed {f : LiveFile} (hprinted : ¬ ∃ base ext, Dotted f.printed base ext)
    (hraw : f.long ≠ [] → Plain f.long → f.raw = pad11 f.long) :
    Answers f (searchTerm f.printed) := by
  obtain ⟨hplain, hterm⟩ | ⟨base, ext, hdotted, _⟩ | ⟨_, hterm⟩ := searchTerm_cases f.printed
  · -- only a long name is short enough to be padded
    have hlong : f.long ≠ [] := by
      intro hnil
      have hlen := hplain.facts.2
      rw [LiveFile.printed, if_pos hnil, f.raw_length] at hlen
      omega
    rw [LiveFile.printed, if_neg hlong] at hplain hterm
    rw [LiveFile.printed, if_neg hlong, hterm]
    exact .inl (hraw hlong hplain)
  · exact absurd ⟨base, ext, hdotted⟩ hprinted
  · rw [hterm, LiveFile.printed]
    split
    · exact .inl rfl
    · rename_i hlong
      exact .inr ⟨hlong, rfl⟩

/-- A file that answers to a search has the name that is searched for. -/
theorem NamesOk.mem_names {root : UInt32} (hok : NamesOk es root) {f : LiveFile}
    (hf : f ∈ liveFiles es) {q : List UInt8} (h : Answers f (searchTerm q)) : q ∈ f.names := by
  obtain ⟨hplain, hterm⟩ | ⟨base, ext, hdotted, hterm⟩ | ⟨_, hterm⟩ := searchTerm_cases q
  · rw [hterm] at h
    obtain hraw | ⟨_, hlong⟩ := h
    · exact display_mem_names hplain hraw
    · rw [← hok.padded f hf q hplain hlong]
      exact f.display_mem_names
  · rw [hterm] at h
    obtain ⟨hlong, hne⟩ := h.ext hdotted
    have hlen := hok.ext f hf (hlong ▸ hdotted.upper_ext)
    rw [hlong] at hlen
    have := List.length_pos_iff.mpr hne
    have := hdotted.ext_length
    omega
  · rw [hterm] at h
    exact h.mem_names

/-! ### Searches -/

variable (h : DirectoryLoads d s t es) (hd : DistinctNames es)
include h

/-- A search that ends at the record of a file finds the file. -/
theorem findFile_found {k : Nat} {f : LiveFile} (hf : (k, f) ∈ placed 0 es) {q : List UInt8}
    (hrun : findRecord d s q = .ok (some (32 * (k : Int)), t)) (file : File) :
    ∃ file' u, findFile d s q file = .ok (0, file', u) ∧ FatFrame t u ∧ file'.type = f.type ∧
      file'.size = toInt f.size.toNat ∧ file'.clusters 0 =
        if f.cluster = 0 then toInt t.fileSys.A_BF_BPB_RootDirStrtClus.toNat
        else toInt f.cluster.toNat := by
  obtain ⟨file', u, hfill, hdata⟩ := fillFile_holds d t (h.holds.isShort (k, f) hf) file
  refine ⟨file', u, ?_, hdata⟩
  rw [findFile, hrun, ok_bind]
  dsimp only
  rw [hfill]
  rfl

include hd

/-- A search for a term that a file answers to ends at its record. -/
theorem findRecord_answers {k : Nat} {f : LiveFile} (hf : (k, f) ∈ placed 0 es) {q : List UInt8}
    (hlen : q.length ≤ 104) (hq : 0 ∉ q) (hanswers : Answers f (searchTerm q)) :
    findRecord d s q = .ok (some (32 * (k : Int)), t) := by
  rw [findRecord_holds h hlen hq, find?_answers hd hf hanswers]
  rfl

/-- The search is right if the names are all right. -/
theorem NamesOk.findsFile {root : UInt32} (hroot : t.fileSys.A_BF_BPB_RootDirStrtClus = root)
    (hok : NamesOk es root) {f : LiveFile} (hf : f ∈ liveFiles es) :
    FindsFile d s (toInt root.toNat) f.printed f := by
  obtain ⟨k, hmem⟩ := mem_liveFiles.mp hf
  obtain ⟨hlen, hchars⟩ := f.printed_facts
  intro file
  obtain ⟨file', u, hrun, _, htype, hsize, hcluster⟩ :=
    findFile_found h hmem (findRecord_answers h hd hmem hlen hchars
      (answers_printed (hok.printed f hf) (hok.plain f hf))) file
  refine ⟨file', u, hrun, ?_, hsize, htype⟩
  rw [hcluster, hroot, LiveFile.start]
  by_cases h0 : f.cluster = 0
  · obtain hdir | hne | rfl := hok.cluster f hf
    · rw [if_pos h0, if_pos ⟨hdir, h0⟩]
    · exact absurd h0 hne
    · -- cluster 0 is the root directory itself
      rw [if_pos h0]
      split
      · rfl
      · rw [h0]
  · rw [if_neg h0, if_neg fun hand => h0 hand.2]

omit hd in
theorem NamesOk.opensNamed {root : UInt32} (hok : NamesOk es root) : OpensNamed d s es := by
  intro q hq off u hrun
  by_cases hlen : q.length ≤ 104
  · rw [findRecord_holds h hlen hq] at hrun
    obtain ⟨hmap, _⟩ := Prod.mk.inj (Except.ok.inj hrun)
    obtain ⟨p, hfind, rfl⟩ := Option.map_eq_some_iff.mp hmap
    have hp := List.mem_of_find?_eq_some hfind
    have hanswers : Answers p.2 (searchTerm q) := by simpa using List.find?_some hfind
    exact ⟨p, hp, rfl, hok.mem_names (mem_liveFiles.mpr ⟨p.1, hp⟩) hanswers⟩
  · rw [findRecord, if_pos (by omega)] at hrun
    exact nomatch hrun

/-- A file that a right search ends at has the name. -/
theorem OpensNamed.mem_names (hopens : OpensNamed d s es) {f : LiveFile} (hf : f ∈ liveFiles es)
    {q : List UInt8} (hlen : q.length ≤ 104) (hq : 0 ∉ q) (hanswers : Answers f (searchTerm q)) :
    q ∈ f.names := by
  obtain ⟨k, hmem⟩ := mem_liveFiles.mp hf
  obtain ⟨p, hp, hoff, hname⟩ :=
    hopens q hq _ _ (findRecord_answers h hd hmem hlen hq hanswers)
  have hk : k = p.1 := by omega
  have heq : (k, f) = p := placed_inj hmem hp hk
  rw [← heq] at hname
  exact hname

/-! ### What right searches say about the names -/

/-- No long name is an extension that is searched for: two names with that extension
    would find it, and it cannot be displayed as both. -/
theorem OpensNamed.ext (hopens : OpensNamed d s es) {f : LiveFile} (hf : f ∈ liveFiles es)
    (hupper : Upper f.long) (hpos : 1 ≤ f.long.length) : 2 < f.long.length := by
  by_contra hle
  have hne : f.long ≠ [] := List.length_pos_iff.mp hpos
  -- a dotted name leaves its extension in the first bytes of the search term
  have hname : ∀ c : UInt8, 65 ≤ c ∧ c ≤ 90 → display f.raw = [c] ++ DOT :: f.long := by
    intro c hc
    have hbase : Upper [c] := fun b hb => by rwa [List.mem_singleton.mp hb]
    have hdotted : Dotted ([c] ++ DOT :: f.long) [c] f.long :=
      ⟨rfl, hbase, hupper, by simp, by omega⟩
    have hlen : ([c] ++ DOT :: f.long).length = f.long.length + 2 := by simp
    have hzero : 0 ∉ [c] ++ DOT :: f.long := by
      rw [List.mem_append]
      rintro (hmem | hmem)
      · exact hbase.zero_not_mem hmem
      · obtain hdot | hmem := List.mem_cons.mp hmem
        · exact absurd hdot (by decide)
        · exact f.long_chars hmem
    have hmem := hopens.mem_names h hd hf (by omega) hzero (by
      rw [searchTerm_dotted hdotted]
      exact .inr ⟨hne, rfl⟩)
    obtain ⟨_, heq⟩ | heq | heq := LiveFile.mem_names hmem
    · have := congrArg List.length heq
      omega
    · have := congrArg List.length heq
      rw [f.raw_length] at this
      omega
    · exact heq.symm
  -- `A` and `B` in front of the same extension
  have := (hname 65 (by decide)).symm.trans (hname 66 (by decide))
  simp at this

/-- A file whose long name is a padded name is displayed by that name. -/
theorem OpensNamed.padded (hopens : OpensNamed d s es) {f : LiveFile} (hf : f ∈ liveFiles es)
    {q : List UInt8} (hplain : Plain q) (hlong : f.long = pad11 q) : display f.raw = q := by
  have hlen := hplain.facts.2
  have h11 : f.long.length = 11 := by rw [hlong, length_pad11 (by omega)]
  have hzero : 0 ∉ q := fun hmem => f.long_chars (by
    rw [hlong, pad11]
    exact List.mem_append_left _ hmem)
  have hmem := hopens.mem_names h hd hf (by omega) hzero (by
    rw [searchTerm_plain hplain]
    exact .inr ⟨List.length_pos_iff.mp (by omega), hlong⟩)
  obtain ⟨_, rfl⟩ | rfl | heq := LiveFile.mem_names hmem
  · omega
  · have := f.raw_length
    omega
  · exact heq.symm

omit hd in
/-- A search that finds some file ends at one that answers. -/
theorem FindsFile.answers {root : Int} {q : List UInt8} {f : LiveFile} (hfinds : FindsFile d s root q f)
    (hlen : q.length ≤ 104) (hq : 0 ∉ q) : ∃ p ∈ placed 0 es, Answers p.2 (searchTerm q) := by
  obtain ⟨file', u, hrun, _⟩ := hfinds {}
  have hrecord := findRecord_holds h hlen hq
  cases hfind : (placed 0 es).find? fun p => Answers p.2 (searchTerm q) with
  | none =>
    rw [findFile, hrecord, hfind] at hrun
    cases hrun
  | some p =>
    exact ⟨p, List.mem_of_find?_eq_some hfind, by simpa using List.find?_some hfind⟩

/-- A file whose long name is plain has that name, padded, as its short name. -/
theorem FindsFile.plain {root : Int} (hopens : OpensNamed d s es) {f : LiveFile}
    (hf : f ∈ liveFiles es) (hfinds : FindsFile d s root f.printed f) (hlong : f.long ≠ [])
    (hplain : Plain f.long) : f.raw = pad11 f.long := by
  obtain ⟨k, hmem⟩ := mem_liveFiles.mp hf
  obtain ⟨hlen, hchars⟩ := f.printed_facts
  obtain ⟨p, hp, hanswers⟩ := hfinds.answers h hlen hchars
  have hpf : p.2 ∈ liveFiles es := mem_liveFiles.mpr ⟨p.1, hp⟩
  rw [LiveFile.printed, if_neg hlong, searchTerm_plain hplain] at hanswers
  -- the file that answers is displayed by the name, so it is the file itself
  have hname : f.long ∈ p.2.names := by
    obtain hraw | ⟨_, hlong'⟩ := hanswers
    · exact display_mem_names hplain hraw
    · rw [← hopens.padded h hd hpf hplain hlong']
      exact p.2.display_mem_names
  have heq : (k, f) = p := hd.unique hmem hp (LiveFile.long_mem_names hlong) hname
  rw [← heq] at hanswers
  obtain hraw | ⟨_, hlong'⟩ := hanswers
  · exact hraw
  · have hlen8 := hplain.facts.2
    have : f.long.length = (pad11 f.long).length := congrArg List.length hlong'
    rw [length_pad11 (by omega)] at this
    omega

/-- Right searches leave the names all right. -/
theorem namesOk_of_right (hfinds : ∀ f ∈ liveFiles es,
      FindsFile d s (toInt t.fileSys.A_BF_BPB_RootDirStrtClus.toNat) f.printed f)
    (hopens : OpensNamed d s es) : NamesOk es t.fileSys.A_BF_BPB_RootDirStrtClus := by
  have hprinted : ∀ f ∈ liveFiles es, ¬ ∃ base ext, Dotted f.printed base ext := by
    rintro f hf ⟨base, ext, hdotted⟩
    obtain ⟨hlen, hchars⟩ := f.printed_facts
    obtain ⟨p, hp, hanswers⟩ := (hfinds f hf).answers h hlen hchars
    rw [searchTerm_dotted hdotted] at hanswers
    obtain ⟨hlong, hne⟩ := hanswers.ext hdotted
    have := hopens.ext h hd (mem_liveFiles.mpr ⟨p.1, hp⟩) (hlong ▸ hdotted.upper_ext)
      (hlong ▸ List.length_pos_iff.mpr hne)
    rw [hlong] at this
    have := hdotted.ext_length
    omega
  have hplain : ∀ f ∈ liveFiles es, f.long ≠ [] → Plain f.long → f.raw = pad11 f.long :=
    fun f hf => FindsFile.plain h hd hopens hf (hfinds f hf)
  refine ⟨hprinted, fun f hf => hopens.ext h hd hf, hplain,
    fun f hf q hq => hopens.padded h hd hf hq, fun f hf => ?_⟩
  -- the start cluster that is filled in for a file without one
  by_contra hcluster
  rw [not_or, not_or, not_not] at hcluster
  obtain ⟨hdir, h0, hroot⟩ := hcluster
  obtain ⟨k, hmem⟩ := mem_liveFiles.mp hf
  obtain ⟨hlen, hchars⟩ := f.printed_facts
  obtain ⟨file', u, hrun, _, _, _, hfilled⟩ := findFile_found h hmem (findRecord_answers h hd hmem hlen
    hchars (answers_printed (hprinted f hf) (hplain f hf))) {}
  obtain ⟨file'', u', hrun', hstart, _⟩ := hfinds f hf {}
  rw [hrun'] at hrun
  cases hrun
  rw [hstart, LiveFile.start, if_neg fun hand => hdir hand.1, if_pos h0, h0] at hfilled
  exact hroot (toInt_toNat_eq_zero.mp (hfilled.symm.trans (toInt_toNat_eq_zero.mpr rfl)))

/-- For a directory whose files have distinct names: each file is found by the name that
    is printed for it, and no search opens a file by a name it does not have, exactly if
    the names are all right. -/
theorem findFile_correct_iff : (∀ f ∈ liveFiles es,
      FindsFile d s (toInt t.fileSys.A_BF_BPB_RootDirStrtClus.toNat) f.printed f) ∧
        OpensNamed d s es ↔ NamesOk es t.fileSys.A_BF_BPB_RootDirStrtClus :=
  ⟨fun ⟨hfinds, hopens⟩ => namesOk_of_right h hd hfinds hopens,
    fun hok => ⟨fun _ hf => hok.findsFile h hd rfl hf, hok.opensNamed h⟩⟩

end Search

/-! ## Two small directories -/

/-- A file that is found by the name that is printed. -/
theorem findFile_correct_iff_letter :
    FindsFile (healthyDrive fun _ => 0) (withDirectory letterRecords) (toInt (UInt32.toNat 2))
      [97] letterFile ∧
    OpensNamed (healthyDrive fun _ => 0) (withDirectory letterRecords) [.deleted, .live letterFile] := by
  have hloads : DirectoryLoads (healthyDrive fun _ => 0) (withDirectory letterRecords)
      (withDirectory letterRecords) [.deleted, .live letterFile] :=
    ⟨rfl, letterRecords_holds, by decide, by decide⟩
  have hlower : ¬ Upper [97] := fun h => absurd (h 97 List.mem_cons_self) (by decide)
  obtain ⟨hfinds, hopens⟩ := (findFile_correct_iff hloads (List.pairwise_singleton _ _)).mpr
    { printed := by
        intro f hf
        rw [List.mem_singleton.mp hf]
        intro hgiven
        obtain ⟨base, ext, hdotted⟩ := hgiven
        have : DOT ∈ letterFile.printed := hdotted.eq ▸ List.mem_append_right _ List.mem_cons_self
        exact absurd this (by decide)
      ext := by
        intro f hf hupper
        rw [List.mem_singleton.mp hf] at hupper
        exact absurd hupper hlower
      plain := by
        intro f hf _ hplain
        rw [List.mem_singleton.mp hf] at hplain
        obtain hdot | hdot | ⟨hupper, _⟩ := hplain
        · exact absurd hdot (by decide)
        · exact absurd hdot (by decide)
        · exact absurd hupper hlower
      padded := by
        intro f hf q hplain hlong
        rw [List.mem_singleton.mp hf] at hlong
        have := congrArg List.length hlong
        rw [length_pad11 (by have := hplain.facts.2; omega)] at this
        exact absurd this (by decide)
      cluster := by
        intro f hf
        rw [List.mem_singleton.mp hf]
        exact .inr (.inl (by decide)) }
  exact ⟨hfinds letterFile List.mem_cons_self, hopens⟩

/-- A file with the long name `A.C`. -/
def dottedFile : LiveFile where
  long := [65, 46, 67]
  raw := [65, 32, 32, 32, 32, 32, 32, 32, 67, 32, 32]
  directory := false
  cluster := 3
  size := 3
  long_length := by decide
  long_chars := by decide
  raw_length := rfl
  raw_chars := by decide
  raw_first := by decide

/-- The piece of the long name and the short record of the file. -/
def dottedRecords : List UInt8 :=
  [0x41, 65, 0, 46, 0, 67, 0, 0, 0, 0xFF, 0xFF, 0x0F, 0, 0, 0xFF, 0xFF,
    0xFF, 0xFF, 0xFF, 0xFF, 0xFF, 0xFF, 0xFF, 0xFF, 0xFF, 0xFF, 0, 0, 0xFF, 0xFF, 0xFF, 0xFF] ++
  [65, 32, 32, 32, 32, 32, 32, 32, 67, 32, 32, 0x20, 0, 0, 0, 0,
    0, 0, 0, 0, 0, 0, 0, 0, 0, 0, 3, 0, 3, 0, 0, 0]

theorem dottedRecords_loads : DirectoryLoads (healthyDrive fun _ => 0) (withDirectory dottedRecords)
    (withDirectory dottedRecords) [.live dottedFile] := by
  refine ⟨rfl, ⟨fun j hj => ?_, ?_, rfl⟩, by decide, by decide⟩
  · obtain rfl : j = 0 := by
      have : pieces dottedFile.long = 1 := rfl
      omega
    refine ⟨rfl, rfl, fun i hi => ?_⟩
    have hall : ∀ i : Fin 13, (subBuffer (ofString dottedRecords) (32 * (0 + 0 : Nat)) (charOffset i),
      subBuffer (ofString dottedRecords) (32 * (0 + 0 : Nat)) (charOffset i + 1)) =
        LFNWord [65, 46, 67] (13 * (1 - 1) + i) := by decide
    exact hall ⟨i, hi⟩
  · exact ⟨by decide, by decide, by decide, by decide, by decide⟩

/-- A file that is not found by the name that is printed: the search is for `C`. -/
theorem findFile_not_correct :
    DirectoryLoads (healthyDrive fun _ => 0) (withDirectory dottedRecords)
      (withDirectory dottedRecords) [.live dottedFile] ∧ DistinctNames [.live dottedFile] ∧
    ¬ FindsFile (healthyDrive fun _ => 0) (withDirectory dottedRecords) (toInt (UInt32.toNat 2))
      dottedFile.printed dottedFile := by
  refine ⟨dottedRecords_loads, List.pairwise_singleton _ _, fun hfinds => ?_⟩
  have hdotted : Dotted dottedFile.printed [65] [67] :=
    ⟨rfl, by simp [Upper], by simp [Upper], by decide, by decide⟩
  obtain ⟨p, hp, hanswers⟩ := hfinds.answers dottedRecords_loads (by decide) (by decide)
  rw [searchTerm_dotted hdotted, List.mem_singleton.mp hp] at hanswers
  exact absurd hanswers (by decide)

end SoreOS
