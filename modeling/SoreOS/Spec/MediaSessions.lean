import SoreOS.Native.MediaMain
import SoreOS.Spec.BuildWrites

/-!
# Sessions with the media utility

A drive under any number of sessions, whichever calls fail in them. It is written only if it has the utility's
signature or the word was typed, and once it is written it has the signature.

## Key results

- `safetyCheck_ok`, `safetyCheck_failed`: what the check finds
- `signed_foldl`: any of the writes leave the signature on the drive
- `main_prefix`: a session
- `sessions_drive`: any number of sessions
-/

namespace SoreOS.MediaUtility

open ForStd

/-! ## The check -/

/-- The drive has the utility's signature. -/
def Signed (drive : Bytes) : Prop := drive.read 0x1B6 7 = signature

instance (drive : Bytes) : Decidable (Signed drive) := inferInstanceAs (Decidable (_ = _))

theorem sameFrom_iff (sector : Bytes) (j : Int) (str : List UInt8) :
    sameFrom sector j str = true ↔ sector.read j str.length = str := by
  induction str generalizing j with
  | nil => exact iff_of_true rfl rfl
  | cons c str ih =>
    rw [sameFrom, List.length_cons, Mem.read_succ]
    by_cases hc : c = sector j
    · rw [if_neg (not_not.mpr hc), ih, ← hc, List.cons.injEq, and_iff_right rfl]
    · rw [if_pos hc]
      exact iff_of_false Bool.false_ne_true fun heq => hc (List.cons.inj heq).1.symm

section Check

variable {w : Windows} {m : Machine}

theorem readPhysicalDrive_ok (buffer : Bytes) (hopen : w.succeeds m.calls = true) (hread : w.succeeds (m.calls + 1) = true)
    (LBA : Int) (size : Nat) :
    (readPhysicalDrive w m LBA buffer size).1 = 0 ∧
      (readPhysicalDrive w m LBA buffer size).2.1 = memcpyObj buffer 0 m.drive (LBA * 512) size ∧
      (readPhysicalDrive w m LBA buffer size).2.2.calls = m.calls + 2 := by
  simp [readPhysicalDrive, createFile_ok hopen, readFile, hread, closeHandle]

theorem readPhysicalDrive_failed {buffer : Bytes} (h : (w.succeeds m.calls && w.succeeds (m.calls + 1)) = false)
    (LBA : Int) (size : Nat) : (readPhysicalDrive w m LBA buffer size).1 = -1 := by
  cases hopen : w.succeeds m.calls with
  | true =>
    rw [hopen, Bool.true_and] at h
    simp [readPhysicalDrive, createFile_ok hopen, readFile, h]
  | false => simp [readPhysicalDrive, createFile_failed hopen]

theorem readPhysicalDrive_drive (LBA : Int) (buffer : Bytes) (size : Nat) :
    (readPhysicalDrive w m LBA buffer size).2.2.drive = m.drive := by
  simp only [readPhysicalDrive, readFile]
  split
  · exact createFile_drive w m
  · split <;> split <;> simp

theorem safetyCheck_drive (index : Int) (str : List UInt8) : (safetyCheck w m index str).2.drive = m.drive := by
  have hdrive := readPhysicalDrive_drive (w := w) (m := m) 0 w.stack 512
  simp only [safetyCheck]
  split
  · exact hdrive
  · split <;> exact hdrive

/-- The check reads the drive by two calls, and then the signature decides. -/
theorem safetyCheck_ok (hopen : w.succeeds m.calls = true) (hread : w.succeeds (m.calls + 1) = true) :
    (safetyCheck w m 0x1B6 signature).1 = (if Signed m.drive then 0 else -2) ∧
      (safetyCheck w m 0x1B6 signature).2.calls = m.calls + 2 := by
  obtain ⟨hres, hsector, hcalls⟩ := readPhysicalDrive_ok w.stack hopen hread 0 512
  have hlen : signature.length = 7 := rfl
  have hsame : sameFrom (readPhysicalDrive w m 0 w.stack 512).2.1 0x1B6 signature = true ↔ Signed m.drive := by
    rw [sameFrom_iff, hlen, Signed, hsector]
    have hblock : (memcpyObj w.stack 0 m.drive (0 * 512) 512).read 0x1B6 7 = m.drive.read 0x1B6 7 := by
      apply Mem.read_congr
      intro i hi
      rw [memcpyObj, Mem.copyFrom_apply, if_pos (by omega)]
      congr 1
      omega
    rw [hblock]
  simp only [safetyCheck]
  rw [if_neg (not_not.mpr hres)]
  by_cases hsigned : Signed m.drive
  · rw [if_pos (hsame.mpr hsigned), if_pos hsigned]
    exact ⟨rfl, hcalls⟩
  · rw [if_neg (mt hsame.mp hsigned), if_neg hsigned]
    exact ⟨rfl, hcalls⟩

theorem safetyCheck_failed (h : (w.succeeds m.calls && w.succeeds (m.calls + 1)) = false) (index : Int)
    (str : List UInt8) : (safetyCheck w m index str).1 = -1 := by
  simp only [safetyCheck]
  rw [if_pos (by rw [readPhysicalDrive_failed h]; decide)]

end Check

/-! ## The signature -/

/-- Writes elsewhere leave a byte alone. -/
theorem foldl_apply_outside {ws : List Write} {a : Int} (h : ∀ wr ∈ ws, a < wr.LBA * 512 ∨ wr.LBA * 512 + wr.size ≤ a)
    (drive : Bytes) : ws.foldl Write.apply drive a = drive a := by
  induction ws generalizing drive with
  | nil => rfl
  | cons wr ws ih =>
    have hwr := h wr List.mem_cons_self
    rw [List.foldl_cons, ih (fun wr' hmem => h wr' (List.mem_cons_of_mem _ hmem)), Write.apply, memcpyObj,
      Mem.copyFrom_apply, if_neg (by omega)]

theorem writtenHeader_layout (w : Windows) (n : Nat) : StandardLayout (writtenHeader w (buildHeader w n)) where
  bytesPerSector := rfl
  sectorsPerCluster := rfl
  rootCluster := rfl
  fat := defaultHeader_layout.fat
  sectorsPerFat := defaultHeader_layout.sectorsPerFat
  clusters := defaultHeader_layout.clusters

/-- The sectors of the four writes. -/
theorem buildWrites_eq (w : Windows) (n : Nat) : buildWrites w n =
    [⟨0, bootImage w (buildHeader w n), 13 * 512⟩, ⟨13, clearFAT w.stack, 512⟩, ⟨16398, clearFAT w.stack, 512⟩,
      ⟨32783, memset w.stack 0 0 2048, 2048⟩] := by
  have hl := writtenHeader_layout w n
  have hfat : toInt (writtenHeader w (buildHeader w n)).LBA_FAT_Location.toNat = 13 := by rw [hl.fat]; decide
  have hfat2 : toInt ((writtenHeader w (buildHeader w n)).A_BF_BPB_BigSectorsPerFat.toNat + 13) = 16398 := by
    rw [hl.sectorsPerFat]
    decide
  have hroot : toInt (writtenHeader w (buildHeader w n)).LBA_Cluster_Location.toNat = 32783 := by
    rw [hl.clusters]
    decide
  rw [buildWrites, clearWrites, hfat, hfat2, hroot]

/-- After the first write the image is on the drive, whichever of the others follow. -/
theorem foldl_image (w : Windows) (n k : Nat) (drive : Bytes) {a : Int} (h0 : 0 ≤ a) (ha : a < 13 * 512) :
    ((buildWrites w n).take (k + 1)).foldl Write.apply drive a = bootImage w (buildHeader w n) a := by
  rw [buildWrites_eq, List.take_succ_cons, List.foldl_cons, foldl_apply_outside]
  · show memcpyObj drive (0 * 512) (bootImage w (buildHeader w n)) 0 (13 * 512) a = _
    rw [memcpyObj, Mem.copyFrom_apply, if_pos (by omega)]
    congr 1
    omega
  · intro wr hmem
    have hwr := List.mem_of_mem_take hmem
    simp only [List.mem_cons, List.not_mem_nil, or_false] at hwr
    obtain rfl | rfl | rfl := hwr <;> dsimp only <;> omega

theorem signed_bootImage (w : Windows) (hdr : FAT32_HEADER) : Signed (bootImage w hdr) := by
  have hblock : (bootImage w hdr).read 0x1B6 7 = (firstSectors hdr
      (readBootLoader w (memset w.stack 0 0 (13 * 512))).2).read 0x1B6 7 := by
    apply Mem.read_congr
    intro i hi
    rw [bootImage, image_apply, if_neg (by omega), if_neg (by omega)]
  rw [Signed, hblock, firstSectors, addSignature, writeArray, memcpyObj, Mem.read_copyFrom _ _ _ _ (Nat.le_refl 7)]
  rfl

theorem signed_foldl (w : Windows) (n : Nat) {k : Nat} (hk : 0 < k) (drive : Bytes) :
    Signed (((buildWrites w n).take k).foldl Write.apply drive) := by
  obtain ⟨k, rfl⟩ := Nat.exists_eq_add_one_of_ne_zero (Nat.ne_of_gt hk)
  rw [Signed, ← signed_bootImage w (buildHeader w n)]
  apply Mem.read_congr
  intro i hi
  exact foldl_image w n k drive (by omega) (by omega)

/-! ## A session -/

/-- The utility goes on to the build: the drive can be read, and has the signature or the word is typed. -/
def Permitted (w : Windows) (m : Machine) (user : Console) : Prop :=
  w.succeeds m.calls = true ∧ w.succeeds (m.calls + 1) = true ∧
    (Signed m.drive ∨ words.getD (user.rand % 12) "" = user.input)

instance (w : Windows) (m : Machine) (user : Console) : Decidable (Permitted w m user) :=
  inferInstanceAs (Decidable (_ ∧ _ ∧ _))

/-- How many writes a session makes. -/
def sessionDone (w : Windows) (m : Machine) (user : Console) : Nat :=
  if Permitted w m user then buildDone w user.ID (m.calls + 2) else 0

section Session

variable {w : Windows} {m : Machine} {user : Console}

theorem main_permitted (h : Permitted w m user) :
    main w m user = ((if (build w (safetyCheck w m 0x1B6 signature).2 user.ID).1 = 0 then .successful else .unsuccessful),
      (build w (safetyCheck w m 0x1B6 signature).2 user.ID).2) := by
  obtain ⟨hopen, hread, hallowed⟩ := h
  have hcheck := (safetyCheck_ok hopen hread).1
  simp only [main, hcheck]
  by_cases hsigned : Signed m.drive
  · rw [if_pos hsigned]
    rfl
  · rw [if_neg hsigned, if_pos (hallowed.resolve_left hsigned)]
    rfl

theorem main_refused (h : ¬ Permitted w m user) :
    main w m user = (.failedToSelect, (safetyCheck w m 0x1B6 signature).2) := by
  cases hread : w.succeeds m.calls && w.succeeds (m.calls + 1) with
  | false => simp [main, safetyCheck_failed hread]
  | true =>
    obtain ⟨hopen, hread⟩ := Bool.and_eq_true_iff.mp hread
    have hallowed := fun hor => h ⟨hopen, hread, hor⟩
    have hsigned : ¬ Signed m.drive := fun hs => hallowed (.inl hs)
    have hword : ¬ words.getD (user.rand % 12) "" = user.input := fun hw => hallowed (.inr hw)
    simp only [main, (safetyCheck_ok hopen hread).1, if_neg hsigned, if_neg hword]
    rfl

/-- The drive after a session is the old one with the first of the writes. -/
theorem main_writes (w : Windows) (m : Machine) (user : Console) :
    (main w m user).2.drive =
        ((buildWrites w (m.calls + 3)).take (sessionDone w m user)).foldl Write.apply m.drive ∧
      ((main w m user).1 = .failedToSelect ↔ ¬ Permitted w m user) ∧
      ((main w m user).1 = .successful ↔ sessionDone w m user = 4) := by
  rw [sessionDone]
  by_cases h : Permitted w m user
  · obtain ⟨hdrive, hres, -⟩ := build_writes_done w (safetyCheck w m 0x1B6 signature).2 user.ID
    rw [(safetyCheck_ok h.1 h.2.1).2] at hdrive hres
    rw [safetyCheck_drive] at hdrive
    rw [main_permitted h, if_pos h, hdrive, ← hres]
    refine ⟨rfl, iff_of_false ?_ (not_not.mpr h), ?_⟩
    · split <;> exact Report.noConfusion
    · dsimp only
      split <;> simp_all
  · rw [main_refused h, if_neg h, safetyCheck_drive]
    exact ⟨rfl, iff_of_true rfl h, iff_of_false Report.noConfusion (by decide)⟩

/-- Nothing is written unless the geometry and the boot loader were read, and every volume of the drive was
    locked and dismounted. -/
theorem buildDone_pos {w : Windows} {driveNum : Int} {n : Nat} (h : 0 < buildDone w driveNum n) :
    Succeed w n 2 ∧ w.bootLoader ≠ none ∧
      Succeed w (attached w driveNum 26 (n + 2)).2 (2 * (attached w driveNum 26 (n + 2)).1.length) := by
  rw [buildDone] at h
  split at h
  · rename_i hbegin
    obtain ⟨hinfo, hboot⟩ := Bool.and_eq_true_iff.mp hbegin
    refine ⟨(succeed_two n).mpr (Bool.and_eq_true_iff.mp hinfo), Option.isSome_iff_ne_none.mp hboot, fun i hi => ?_⟩
    dsimp only [volumesDone] at h
    split at h
    · rename_i hlocked
      exact List.all_eq_true.mp hlocked i (List.mem_range.mpr hi)
    · exact absurd h (Nat.lt_irrefl 0)
  · exact absurd h (Nat.lt_irrefl 0)

theorem buildDone_le (w : Windows) (driveNum : Int) (n : Nat) : buildDone w driveNum n ≤ 4 := by
  rw [buildDone, volumesDone]
  split
  · dsimp only
    split
    · exact writesDone_le _ _
    · exact Nat.zero_le 4
  · exact Nat.zero_le 4

/-- A session leaves the old drive with some of the four writes in their order, and reports a success exactly if these
    are all. It writes only to a drive with the signature, or after the word, and only with the geometry and the boot
    loader read and every volume of the drive locked and dismounted. -/
theorem main_prefix (w : Windows) (m : Machine) (user : Console) :
    ∃ k ≤ 4, (main w m user).2.drive = ((buildWrites w (m.calls + 3)).take k).foldl Write.apply m.drive ∧
      ((main w m user).1 = .successful ↔ k = 4) ∧
      (0 < k → Permitted w m user ∧ Succeed w (m.calls + 2) 2 ∧ w.bootLoader ≠ none ∧
        Succeed w (attached w user.ID 26 (m.calls + 4)).2 (2 * (attached w user.ID 26 (m.calls + 4)).1.length)) := by
  obtain ⟨hdrive, -, hsuccess⟩ := main_writes w m user
  refine ⟨sessionDone w m user, ?_, hdrive, hsuccess, fun hpos => ?_⟩
  · rw [sessionDone]
    split
    · exact buildDone_le _ _ _
    · exact Nat.zero_le 4
  · rw [sessionDone] at hpos
    split at hpos
    · rename_i hpermitted
      exact ⟨hpermitted, buildDone_pos hpos⟩
    · exact absurd hpos (Nat.lt_irrefl 0)

end Session

/-! ## Sessions -/

/-- A session on a drive: each run of the program finds other answers. -/
def session (drive : Bytes) (run : Windows × Console) : Bytes := (main run.1 { drive := drive } run.2).2.drive

/-- The word was typed. -/
def Typed (user : Console) : Prop := words.getD (user.rand % 12) "" = user.input

theorem session_cases (drive : Bytes) (run : Windows × Console) :
    session drive run = drive ∨ (Signed drive ∨ Typed run.2) ∧ Signed (session drive run) := by
  obtain ⟨hdrive, -, -⟩ := main_writes run.1 { drive := drive } run.2
  rw [session, hdrive]
  by_cases hzero : sessionDone run.1 { drive := drive } run.2 = 0
  · rw [hzero]
    exact .inl rfl
  · refine .inr ⟨?_, signed_foldl _ _ (Nat.pos_of_ne_zero hzero) _⟩
    rw [sessionDone] at hzero
    by_contra hnot
    exact hzero (if_neg fun h => hnot h.2.2)

/-- The bytes that a build may write: the boot image, the first sectors of both FATs, the root folder. -/
def Formatted (a : Int) : Prop :=
  0 ≤ a ∧ a < 14 * 512 ∨ 16398 * 512 ≤ a ∧ a < 16399 * 512 ∨ 32783 * 512 ≤ a ∧ a < 32783 * 512 + 2048

theorem session_outside (drive : Bytes) (run : Windows × Console) {a : Int} (ha : ¬ Formatted a) :
    session drive run a = drive a := by
  obtain ⟨hdrive, -, -⟩ := main_writes run.1 { drive := drive } run.2
  rw [session, hdrive]
  apply foldl_apply_outside
  intro wr hmem
  have hwr := List.mem_of_mem_take hmem
  rw [buildWrites_eq] at hwr
  unfold Formatted at ha
  simp only [List.mem_cons, List.not_mem_nil, or_false] at hwr
  obtain rfl | rfl | rfl | rfl := hwr <;> dsimp only <;> omega

/-- However often the utility is run, and whatever fails: the drive is as it was, or it has the signature; the latter
    only if it had it before, or the word was typed in some session. Outside the formatted bytes nothing changes. -/
theorem sessions_drive (drive : Bytes) (runs : List (Windows × Console)) :
    (runs.foldl session drive = drive ∨
        Signed (runs.foldl session drive) ∧ (Signed drive ∨ ∃ run ∈ runs, Typed run.2)) ∧
      ∀ a, ¬ Formatted a → runs.foldl session drive a = drive a := by
  induction runs generalizing drive with
  | nil => exact ⟨.inl rfl, fun _ _ => rfl⟩
  | cons run runs ih =>
    obtain ⟨hrest, houtside⟩ := ih (session drive run)
    rw [List.foldl_cons]
    refine ⟨?_, fun a ha => (houtside a ha).trans (session_outside drive run ha)⟩
    obtain hsame | ⟨hallowed, hsigned⟩ := session_cases drive run
    · -- this session changed nothing
      rw [hsame] at hrest ⊢
      obtain heq | ⟨hsigned, hor⟩ := hrest
      · exact .inl heq
      · exact .inr ⟨hsigned, hor.imp_right fun h => h.imp fun run' h' => ⟨List.mem_cons_of_mem _ h'.1, h'.2⟩⟩
    · have hallowed' : Signed drive ∨ ∃ run' ∈ run :: runs, Typed run'.2 :=
        hallowed.imp_right fun h => ⟨run, List.mem_cons_self, h⟩
      obtain heq | ⟨hsigned', -⟩ := hrest
      · refine .inr ⟨?_, hallowed'⟩
        rw [heq]
        exact hsigned
      · exact .inr ⟨hsigned', hallowed'⟩

end SoreOS.MediaUtility
