import SoreOS.Spec.Names

/-!
# Short names

What `getShortName` accepts, and what it leaves in its buffer, compared with the 8.3
names and the way they are stored: a base of 8 bytes and an extension of 3, padded
with spaces, and a terminator.

## Key results

- `padded_inj`: distinct names are stored as distinct bytes
- `shortName_iff`: the names that `getShortName` handles as 8.3 names are handled
- `not_shortName`: a name with an extension
-/

namespace SoreOS

open ForStd

/-! ## 8.3 names -/

/-- The characters of a short name. -/
def ShortChar (c : UInt8) : Prop := (65 ≤ c ∧ c ≤ 90) ∨ (48 ≤ c ∧ c ≤ 57)

/-- A base of up to 8 characters, with an extension of up to 3 behind a dot or none. -/
structure IsShortName (name base ext : List UInt8) : Prop where
  eq : name = if ext = [] then base else base ++ DOT :: ext
  base_chars : ∀ c ∈ base, ShortChar c
  ext_chars : ∀ c ∈ ext, ShortChar c
  base_length : 1 ≤ base.length ∧ base.length ≤ 8
  ext_length : ext.length ≤ 3

/-- The two parts as they are stored. -/
def padded (base ext : List UInt8) : List UInt8 :=
  base ++ List.replicate (8 - base.length) SPACE ++ (ext ++ List.replicate (3 - ext.length) SPACE) ++ [0]

theorem ShortChar.ne_space {c : UInt8} (h : ShortChar c) : c ≠ SPACE := by
  rintro rfl
  exact absurd h (by unfold ShortChar; decide)

theorem ShortChar.ne_zero {c : UInt8} (h : ShortChar c) : c ≠ 0 := by
  rintro rfl
  exact absurd h (by unfold ShortChar; decide)

/-- Padding ends where the characters do. -/
private theorem takeWhile_field {l : List UInt8} (h : ∀ c ∈ l, ShortChar c) (n : Nat) :
    (l ++ List.replicate n SPACE).takeWhile (· ≠ SPACE) = l := by
  rw [List.takeWhile_append_of_pos fun c hc => by simpa using (h c hc).ne_space]
  cases n with
  | zero => simp
  | succ n => simp [List.replicate_succ]

/-- Distinct names are stored as distinct bytes. -/
theorem padded_inj {name name' base base' ext ext' : List UInt8} (h : IsShortName name base ext)
    (h' : IsShortName name' base' ext') (heq : padded base ext = padded base' ext') : name = name' := by
  obtain ⟨hparts, -⟩ := List.append_inj' heq rfl
  have hlen := h.base_length
  have hlen' := h'.base_length
  obtain ⟨hbase, hext⟩ := List.append_inj hparts (by
    rw [List.length_append, List.length_append, List.length_replicate, List.length_replicate]
    omega)
  have hb : base = base' := by
    rw [← takeWhile_field h.base_chars (8 - base.length), hbase, takeWhile_field h'.base_chars]
  have he : ext = ext' := by
    rw [← takeWhile_field h.ext_chars (3 - ext.length), hext, takeWhile_field h'.ext_chars]
  rw [h.eq, h'.eq, hb, he]

/-- A name without a dot is a base. -/
theorem IsShortName.ext_eq_nil {name base ext : List UInt8} (h : IsShortName name base ext) (hdot : DOT ∉ name) :
    ext = [] ∧ name = base := by
  have heq := h.eq
  split at heq
  · rename_i hext
    exact ⟨hext, heq⟩
  · exact absurd (heq ▸ List.mem_append_right _ List.mem_cons_self) hdot

/-- Eight capital letters are an 8.3 name. -/
theorem isShortName_upper {name : List UInt8} (hupper : Upper name) (hpos : 1 ≤ name.length)
    (hlen : name.length ≤ 8) : IsShortName name name [] :=
  ⟨rfl, fun c hc => .inl (hupper c hc), fun _ hc => absurd hc List.not_mem_nil, ⟨hpos, hlen⟩, by simp⟩

/-- A stored name is a string of 11 characters. -/
theorem cstr_stored {buffer : Bytes} {name base ext : List UInt8} (h : IsShortName name base ext)
    (hread : buffer.read 0 12 = padded base ext) : (cstr buffer 105).length = 11 := by
  have hlen := h.base_length
  have hlen' := h.ext_length
  have hparts : (base ++ List.replicate (8 - base.length) SPACE ++
      (ext ++ List.replicate (3 - ext.length) SPACE)).length = 11 := by
    simp only [List.length_append, List.length_replicate]
    omega
  have hzero : 0 ∉ base ++ List.replicate (8 - base.length) SPACE ++
      (ext ++ List.replicate (3 - ext.length) SPACE) := by
    simp only [List.mem_append, List.mem_replicate]
    rintro ((hmem | ⟨-, hmem⟩) | (hmem | ⟨-, hmem⟩))
    · exact (h.base_chars 0 hmem).ne_zero rfl
    · exact absurd hmem (by decide)
    · exact (h.ext_chars 0 hmem).ne_zero rfl
    · exact absurd hmem (by decide)
  rw [cstr_of_read (by omega) hzero (by rw [hparts]; exact hread), hparts]

/-! ## The names that are handled -/

/-- A name is accepted exactly if it is an 8.3 name, and then it is stored as one. -/
def HandlesName (name : List UInt8) : Prop :=
  ∀ buffer, ((getShortName name buffer).1 = true ↔ ∃ base ext, IsShortName name base ext) ∧
    ∀ base ext, IsShortName name base ext → (getShortName name buffer).2.read 0 12 = padded base ext

/-- Capital letters, and the names that are neither 8.3 names nor taken for some. -/
def HandledName (name : List UInt8) : Prop :=
  (Upper name ∧ 1 ≤ name.length ∧ name.length ≤ 8) ∨
    (name ≠ [] ∧ (¬ ∃ base ext, Dotted name base ext) ∧ ¬ ∃ base ext, IsShortName name base ext)

theorem handlesName_upper {name : List UInt8} (hupper : Upper name) (hpos : 1 ≤ name.length)
    (hlen : name.length ≤ 8) : HandlesName name := by
  intro buffer
  refine ⟨iff_of_true ((getShortName_iff name buffer).mpr (.inl (.inr (.inr ⟨hupper, hlen⟩))))
    ⟨name, [], isShortName_upper hupper hpos hlen⟩, fun base ext h => ?_⟩
  obtain ⟨rfl, rfl⟩ := h.ext_eq_nil hupper.dot_not_mem
  -- the spaces behind the base and those of the extension
  have hspaces : List.replicate (8 - name.length) SPACE ++ List.replicate 3 SPACE =
      List.replicate (11 - name.length) SPACE := by
    rw [List.replicate_append_replicate]
    congr 1
    omega
  rw [getShortName_upper hupper hlen, read_padded _ (by omega), padded, List.nil_append, List.length_nil,
    Nat.sub_zero, List.append_assoc name, hspaces, pad11]

/-- The characters of an extension go where those of the base belong. -/
theorem not_handlesName_dotted {name base ext : List UInt8} (h : Dotted name base ext) : ¬ HandlesName name := by
  intro hname
  obtain ⟨haccepts, hstores⟩ := hname fun _ => 0
  have haccepted := (getShortName_iff name fun _ => 0).mpr (.inr ⟨base, ext, h⟩)
  obtain ⟨base', ext', hshort⟩ := haccepts.mp haccepted
  have hlen := cstr_stored hshort (hstores base' ext' hshort)
  have hterm := searchTerm_dotted h
  unfold searchTerm at hterm
  split at hterm
  rename_i short buffer heq
  rw [heq] at haccepted hlen
  dsimp only at haccepted hlen
  rw [haccepted, if_pos rfl] at hterm
  -- the extension alone is stored, where 11 characters belong
  rw [hterm] at hlen
  have := h.ext_length
  omega

theorem handlesName_iff {name : List UInt8} (hdot : name ≠ [DOT]) (hdots : name ≠ [DOT, DOT]) :
    HandlesName name ↔ HandledName name := by
  constructor
  · intro h
    by_cases hdotted : ∃ base ext, Dotted name base ext
    · obtain ⟨base, ext, hdotted⟩ := hdotted
      exact absurd h (not_handlesName_dotted hdotted)
    obtain ⟨haccepts, -⟩ := h fun _ => 0
    by_cases hshort : ∃ base ext, IsShortName name base ext
    · -- accepted as a base of capital letters
      obtain ⟨base, ext, hname⟩ := hshort
      obtain ((hplain | hplain | ⟨hupper, hlen⟩) | hext) := (getShortName_iff name _).mp (haccepts.mpr ⟨base, ext, hname⟩)
      · exact absurd hplain hdot
      · exact absurd hplain hdots
      · obtain ⟨-, heq⟩ := hname.ext_eq_nil hupper.dot_not_mem
        exact .inl ⟨hupper, heq ▸ hname.base_length.1, hlen⟩
      · exact absurd hext hdotted
    · refine .inr ⟨?_, hdotted, hshort⟩
      rintro rfl
      exact hshort (haccepts.mp (by decide))
  · rintro (⟨hupper, hpos, hlen⟩ | ⟨hne, hdotted, hshort⟩)
    · exact handlesName_upper hupper hpos hlen
    · refine fun buffer => ⟨iff_of_false ?_ hshort, fun base ext h => absurd ⟨base, ext, h⟩ hshort⟩
      rw [getShortName_iff]
      rintro ((hplain | hplain | ⟨hupper, hlen⟩) | hext)
      · exact hdot hplain
      · exact hdots hplain
      · refine hshort ⟨name, [], isShortName_upper hupper ?_ hlen⟩
        exact List.length_pos_iff.mpr hne
      · exact hdotted hext

/-- Of the names other than the two of dots, `getShortName` handles as 8.3 names are handled exactly
    those of one to eight capital letters, and those it rejects and that are none; and distinct
    accepted ones among these give distinct buffers. -/
theorem shortName_iff (name : List UInt8) (hdot : name ≠ [DOT]) (hdots : name ≠ [DOT, DOT]) :
    (HandlesName name ↔ HandledName name) ∧
      ∀ name', HandlesName name → HandlesName name' → ∀ buffer buffer',
        (getShortName name buffer).1 = true → (getShortName name' buffer').1 = true →
        (getShortName name buffer).2.read 0 12 = (getShortName name' buffer').2.read 0 12 → name = name' := by
  refine ⟨handlesName_iff hdot hdots, fun name' h h' buffer buffer' hacc hacc' hread => ?_⟩
  obtain ⟨base, ext, hname⟩ := (h buffer).1.mp hacc
  obtain ⟨base', ext', hname'⟩ := (h' buffer').1.mp hacc'
  rw [(h buffer).2 base ext hname, (h' buffer').2 base' ext' hname'] at hread
  exact padded_inj hname hname' hread

theorem shortName_iff_readme :
    let name : List UInt8 := [82, 69, 65, 68, 77, 69]
    (HandlesName name ↔ HandledName name) ∧
      ∀ name', HandlesName name → HandlesName name' → ∀ buffer buffer',
        (getShortName name buffer).1 = true → (getShortName name' buffer').1 = true →
        (getShortName name buffer).2.read 0 12 = (getShortName name' buffer').2.read 0 12 → name = name' :=
  shortName_iff [82, 69, 65, 68, 77, 69] (by decide) (by decide)

/-- The name "A.C" is accepted, and its extension is stored where its base belongs. -/
theorem not_shortName : ¬ HandlesName [65, 46, 67] := by
  intro h
  have hname : IsShortName [65, 46, 67] [65] [67] := by
    exact ⟨by decide, List.forall_mem_singleton.mpr (.inl (by decide)), List.forall_mem_singleton.mpr (.inl (by decide)),
      by decide, by decide⟩
  exact absurd ((h fun _ => 0).2 [65] [67] hname) (by decide)

end SoreOS
