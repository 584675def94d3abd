import SoreOS.Spec.DirectoryChain
import SoreOS.Spec.FindFile
import SoreOS.Spec.SystemPath

/-!
# Trees of directories

The directories of a volume, each in one cluster, and the directory that a path leads
to: the names of the path are looked up one after the other, by the rules of
`findFile` for names.

## Key results

- `DirectoryTree.follow_isDirectory`: a path leads to a directory
- `DirectoryTree.follow_parent_iff`: the parent of the directory that a path leads to
- `DirectoryTree.OnDisk`: a disk holds the tree
-/

namespace SoreOS

open ForStd

/-- The cluster that an entry leads to: cluster 0 stands for the root directory. -/
def LiveFile.target (f : LiveFile) : Nat := if f.cluster = 0 then 2 else f.cluster.toNat

/-- The names of an entry: no slashes, a short name that is not blank and a long name
    that does not end with a blank. -/
structure LiveFile.Legal (f : LiveFile) : Prop where
  raw_slash : SLASH ∉ f.raw
  long_slash : SLASH ∉ f.long
  raw_blank : f.raw ≠ pad11 []
  long_blank : f.long.getLast? ≠ some SPACE

/-- The directory itself and its parent, as a search looks for them. -/
def dotNames : List (List UInt8) := [pad11 [DOT], pad11 [DOT, DOT]]

theorem mem_dotNames {name : List UInt8} :
    name ∈ dotNames ↔ name = pad11 [DOT] ∨ name = pad11 [DOT, DOT] := by simp [dotNames]

/-- A name that is looked for as `.` or `..` is one of these, or is padded as it stands. -/
theorem searchTerm_mem_dotNames {name : List UInt8} (h : searchTerm name ∈ dotNames) :
    name = [DOT] ∨ name = [DOT, DOT] ∨ name ∈ dotNames := by
  obtain ⟨hplain, hterm⟩ | ⟨base, ext, hdotted, hterm⟩ | ⟨_, hterm⟩ := searchTerm_cases name
  · rw [hterm] at h
    have hdisplay := display_pad11 hplain
    obtain heq | heq := mem_dotNames.mp h
    · rw [heq, display_pad11 (.inl rfl)] at hdisplay
      exact .inl hdisplay.symm
    · rw [heq, display_pad11 (.inr (.inl rfl))] at hdisplay
      exact .inr (.inl hdisplay.symm)
  · -- an extension is too short
    rw [hterm] at h
    have hlen := hdotted.ext_length
    obtain rfl | rfl := mem_dotNames.mp h
    · exact absurd hlen (by decide)
    · exact absurd hlen (by decide)
  · rw [hterm] at h
    exact .inr (.inr h)

theorem searchTerm_dotNames {name : List UInt8} (h : name ∈ dotNames) : searchTerm name = name := by
  obtain rfl | rfl := mem_dotNames.mp h
  · decide
  · decide

namespace LiveFile.Legal

variable {f : LiveFile}

/-- Only the short names answer to `.` and `..`. -/
theorem answers_dots (hf : f.Legal) {term : List UInt8} (hterm : term ∈ dotNames)
    (h : Answers f term) : f.raw = term := by
  obtain h | ⟨_, h⟩ := h
  · exact h
  · have hlast : term.getLast? = some SPACE := by
      obtain rfl | rfl := mem_dotNames.mp hterm
      · decide
      · decide
    exact absurd (h ▸ hlast) hf.long_blank

/-- A name that is found can be a component of a path. -/
theorem component (hf : f.Legal) {name : List UInt8} (h0 : 0 ∉ name) (h : Answers f (searchTerm name)) :
    Component name := by
  have hupper : ∀ {l : List UInt8}, Upper l → SLASH ∉ l :=
    fun hl hmem => absurd (hl SLASH hmem).1 (by decide)
  obtain ⟨hplain, hterm⟩ | ⟨base, ext, hdotted, hterm⟩ | ⟨_, hterm⟩ := searchTerm_cases name
  · refine ⟨?_, ?_, h0⟩
    · -- what is looked for without a name are blanks
      rintro rfl
      rw [hterm] at h
      obtain hraw | ⟨_, hlong⟩ := h
      · exact hf.raw_blank hraw
      · exact hf.long_blank (by rw [hlong]; decide)
    · obtain rfl | rfl | ⟨hall, _⟩ := hplain
      · decide
      · decide
      · exact hupper hall
  · obtain ⟨rfl, hbase, hext, _, _⟩ := hdotted
    refine ⟨by simp, ?_, h0⟩
    rw [List.mem_append, List.mem_cons]
    rintro (hmem | heq | hmem)
    · exact hupper hbase hmem
    · exact absurd heq (by decide)
    · exact hupper hext hmem
  · rw [hterm] at h
    obtain rfl | ⟨hne, rfl⟩ := h
    · refine ⟨fun hnil => ?_, hf.raw_slash, h0⟩
      have hlen := f.raw_length
      rw [hnil] at hlen
      exact absurd hlen (by decide)
    · exact ⟨hne, hf.long_slash, h0⟩

end LiveFile.Legal

/-! ## Trees -/

/-- A tree of directories, which are named by their clusters. The entries `.` and `..` have
    no long names and lead where they should, and the root directory has no `..`. -/
structure DirectoryTree where
  isDirectory : Nat → Prop
  entries : Nat → List Entry
  parent : Nat → Nat
  depth : Nat → Nat
  root : isDirectory 2
  legal : ∀ c, isDirectory c → ∀ f ∈ liveFiles (entries c), f.Legal
  closed : ∀ c, isDirectory c → ∀ f ∈ liveFiles (entries c), f.directory = true →
    isDirectory f.target
  dots : ∀ c, isDirectory c → ∀ f ∈ liveFiles (entries c), f.raw ∈ dotNames → f.long = []
  dot : ∀ c, isDirectory c → ∀ f ∈ liveFiles (entries c), f.raw = pad11 [DOT] → f.target = c
  dotDot : ∀ c, isDirectory c → ∀ f ∈ liveFiles (entries c), f.raw = pad11 [DOT, DOT] →
    c ≠ 2 ∧ f.target = parent c
  parent_target : ∀ c, isDirectory c → ∀ f ∈ liveFiles (entries c), f.directory = true →
    f.raw ∉ dotNames → parent f.target = c
  depth_parent : ∀ c, isDirectory c → c ≠ 2 → depth (parent c) < depth c

namespace DirectoryTree

variable (T : DirectoryTree)

/-- The entry of a directory that answers to a name. -/
def lookup (c : Nat) (name : List UInt8) : Option LiveFile :=
  if name.length ≤ 104 then (liveFiles (T.entries c)).find? fun f => Answers f (searchTerm name)
  else none

/-- The directory that a path leads to. -/
def follow (c : Nat) : List (List UInt8) → Option Nat
  | [] => some c
  | name :: p => (T.lookup c name).bind fun f => if f.directory = true then follow f.target p else none

variable {T}

theorem follow_append (c : Nat) (p : List (List UInt8)) (name : List UInt8) :
    T.follow c (p ++ [name]) = (T.follow c p).bind (T.follow · [name]) := by
  induction p generalizing c with
  | nil => rfl
  | cons x p ih =>
    rw [List.cons_append, follow, follow]
    cases T.lookup c x with
    | none => rfl
    | some f =>
      rw [Option.bind_some, Option.bind_some]
      split
      · exact ih f.target
      · rfl

/-- A step of a path. -/
theorem follow_singleton {c c' : Nat} {name : List UInt8} : T.follow c [name] = some c' ↔
    ∃ f, T.lookup c name = some f ∧ f.directory = true ∧ f.target = c' := by
  rw [follow]
  cases T.lookup c name with
  | none => simp
  | some f => simp [follow]

theorem lookup_mem {c : Nat} {name : List UInt8} {f : LiveFile} (h : T.lookup c name = some f) :
    f ∈ liveFiles (T.entries c) ∧ name.length ≤ 104 ∧ Answers f (searchTerm name) := by
  unfold lookup at h
  split at h
  · rename_i hlen
    exact ⟨List.mem_of_find?_eq_some h, hlen, by simpa using List.find?_some h⟩
  · exact nomatch h

/-- A path leads to a directory. -/
theorem follow_isDirectory {c c' : Nat} {p : List (List UInt8)} (hc : T.isDirectory c)
    (h : T.follow c p = some c') : T.isDirectory c' := by
  induction p generalizing c with
  | nil => exact Option.some.inj h ▸ hc
  | cons name p ih =>
    obtain ⟨f, hf, h⟩ := Option.bind_eq_some_iff.mp h
    split at h
    · rename_i hdir
      exact ih (T.closed c hc f (lookup_mem hf).1 hdir) h
    · exact nomatch h

/-! ## Parents -/

/-- Behind a path, the parent of its directory is the directory before, but for a padded
    `.` or `..` at its end. -/
theorem follow_parent_iff {c : Nat} {p : List (List UInt8)} {name : List UInt8}
    (h : T.follow 2 (p ++ [name]) = some c) (hne : c ≠ 2) (hname : name ≠ [DOT] ∧ name ≠ [DOT, DOT]) :
    T.follow 2 p = some (T.parent c) ↔ name ∉ dotNames := by
  rw [follow_append] at h
  obtain ⟨c', hc', h⟩ := Option.bind_eq_some_iff.mp h
  obtain ⟨f, hf, hdir, rfl⟩ := follow_singleton.mp h
  have hc := follow_isDirectory T.root hc'
  obtain ⟨hmem, _, hanswers⟩ := lookup_mem hf
  rw [hc', Option.some.injEq]
  constructor
  · -- such a name leads to the directory itself or to its parent, and on upwards
    intro hparent hdots
    have hdepth := T.depth_parent _ (T.closed c' hc f hmem hdir) hne
    rw [← hparent] at hdepth
    rw [searchTerm_dotNames hdots] at hanswers
    have hraw := (T.legal c' hc f hmem).answers_dots hdots hanswers
    obtain rfl | rfl := mem_dotNames.mp hdots
    · rw [T.dot c' hc f hmem hraw] at hdepth
      omega
    · obtain ⟨hne', htarget⟩ := T.dotDot c' hc f hmem hraw
      have := T.depth_parent c' hc hne'
      rw [htarget] at hdepth
      omega
  · intro hdots
    refine (T.parent_target c' hc f hmem hdir fun hraw => ?_).symm
    -- an entry with such a short name has no other name to answer to
    obtain heq | ⟨hne, _⟩ := hanswers
    · obtain hdot | hdotDot | hpadded := searchTerm_mem_dotNames (heq ▸ hraw)
      · exact hname.1 hdot
      · exact hname.2 hdotDot
      · exact hdots hpadded
    · exact hne (T.dots c' hc f hmem hraw)

end DirectoryTree

/-! ## Trees on a disk -/

/-- A disk holds the tree: each directory lies in its cluster, with a zero record behind
    its entries. -/
structure DirectoryTree.OnDisk (T : DirectoryTree) (disk : Bytes) (hdr : FAT32_HEADER) : Prop where
  valid : ∀ c, T.isDirectory c → ValidCluster c
  holds : ∀ c, T.isDirectory c → Holds (clusterByte disk hdr c) 0 (T.entries c)
  fits : ∀ c, T.isDirectory c → 32 * (recordCount (T.entries c) + 1) ≤ 2048

end SoreOS
