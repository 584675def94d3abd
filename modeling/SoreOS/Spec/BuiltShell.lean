import SoreOS.Spec.EmptyVolume
import SoreOS.Spec.ShellAnswers

/-!
# The shell on a built drive

A drive that the media utility has built is an empty root directory to the kernel.

## Key results

- `emptyTree_onDisk`: a built drive holds the empty tree
- `built_shell`: what any commands print
-/

namespace SoreOS.MediaUtility

open ForStd

/-- The root directory without entries. -/
def emptyTree : DirectoryTree where
  isDirectory c := c = 2
  entries _ := []
  parent _ := 2
  depth _ := 0
  root := rfl
  legal := fun _ _ _ hf => absurd hf List.not_mem_nil
  closed := fun _ _ _ hf => absurd hf List.not_mem_nil
  dots := fun _ _ _ hf => absurd hf List.not_mem_nil
  dot := fun _ _ _ hf => absurd hf List.not_mem_nil
  dotDot := fun _ _ _ hf => absurd hf List.not_mem_nil
  parent_target := fun _ _ _ hf => absurd hf List.not_mem_nil
  depth_parent := fun _ hc hne => absurd hc hne

/-- It is on a drive whose root directory begins with a zero. -/
theorem emptyTree_onDisk {d : Drive} (hl : StandardLayout (volumeHeader d.disk)) (hrecord : d.disk (32783 * 512) = 0) :
    emptyTree.OnDisk d.disk (volumeHeader d.disk) := by
  refine ⟨?_, ?_, ?_⟩
  · rintro c rfl
    exact two_valid
  · rintro c rfl
    show clusterByte d.disk (volumeHeader d.disk) (2 : Nat) (32 * (0 : Nat)) = 0
    rw [clusterByte, hl.clusters_toNat]
    exact hrecord
  · rintro c rfl
    decide

theorem emptyTree_holdsFiles (d : Drive) : emptyTree.HoldsFiles d.disk (volumeHeader d.disk) fun _ => [] :=
  fun _ _ _ hf => absurd hf List.not_mem_nil

/-- The answer to a command where there is nothing. -/
def emptyAnswer (cmd : Command) : List UInt8 :=
  if cmd.buffer = str ['c', 'd'] ∨ cmd.buffer = str ['c', 'a', 't'] then cmd.line ++ noSuchFile else []

theorem emptyTree_lookup (c : Nat) (name : List UInt8) : emptyTree.lookup c name = none := by
  rw [DirectoryTree.lookup]
  split
  · rfl
  · rfl

/-- A command changes nothing but the text. -/
theorem emptyTree_answer (contents : LiveFile → List UInt8) (v : Dialogue) (cmd : Command) :
    emptyTree.answer contents v cmd = some (v.print (v.shown ++ str ['$', ' '] ++ emptyAnswer cmd)) := by
  have hprint : ∀ a b, (v.print a).print b = v.print (a ++ b) := fun a b => by
    simp only [Dialogue.print, List.append_assoc]
  rw [DirectoryTree.answer, DirectoryTree.changeDir, DirectoryTree.printFile, emptyTree_lookup, emptyAnswer]
  by_cases hcd : cmd.buffer = str ['c', 'd']
  · rw [if_pos hcd, if_pos (.inl hcd), hprint]
  rw [if_neg hcd]
  by_cases hcat : cmd.buffer = str ['c', 'a', 't']
  · rw [if_pos hcat, if_pos (.inr hcat)]
    exact congrArg some (hprint _ _)
  rw [if_neg hcat, if_neg (not_or.mpr ⟨hcd, hcat⟩), List.append_nil]
  split
  · -- the listing is empty
    exact congrArg some ((hprint _ []).trans (by rw [List.append_nil]))
  · rfl

theorem emptyTree_answers (contents : LiveFile → List UInt8) (cmds : List Command) (text : List UInt8) :
    cmds.foldlM (emptyTree.answer contents) { text := text } =
      some { text := text ++ cmds.flatMap fun cmd => SLASH :: str ['$', ' '] ++ emptyAnswer cmd } := by
  induction cmds generalizing text with
  | nil => rw [List.flatMap_nil, List.append_nil]; rfl
  | cons cmd cmds ih =>
    rw [List.foldlM_cons, emptyTree_answer, List.flatMap_cons, ← List.append_assoc]
    exact ih _

/-- The kernel mounts a drive that was built, whatever it held before, and the shell never fails on it: every command
    prints the prompt `/$ `, and `cd` and `cat` behind it that there is no such file. -/
theorem built_shell {w : Windows} {m : Machine} {driveNum : Int} (h : (build w m driveNum).1 = 0) {d : Drive}
    (hdrive : d.disk = (build w m driveNum).2.drive) (hid : identify d = some true) (hgood : ∀ n, d.good n = true) :
    ∃ s, loadFileSystem d .boot = some (.ok (true, s)) ∧ ∀ cmds, ∃ t, shell d s cmds = .ok t ∧
      t.out = s.out ++ cmds.flatMap fun cmd => SLASH :: str ['$', ' '] ++ emptyAnswer cmd := by
  obtain ⟨hl, hend, hrecord⟩ := build_root h hdrive
  have hroot : FatChain d.disk (volumeHeader d.disk) [2] := ⟨two_valid, hend⟩
  obtain ⟨s, hload, hboot⟩ := loadFileSystem_good hid hgood hl hroot (by decide)
  refine ⟨s, hload, fun cmds => ?_⟩
  have hrun := (hboot.converses (.load hload) emptyTree).shell (emptyTree_onDisk hl hrecord) hl hgood
    (emptyTree_holdsFiles d) cmds
  rw [emptyTree_answers (fun _ => []) cmds []] at hrun
  generalize hshell : shell d s cmds = r at hrun
  cases hrun with
  | succeeds h => exact ⟨_, rfl, h.out⟩

/-- There is no file `B` on a drive of zeros that was built. -/
theorem built_shell_cat : ∃ s t,
    loadFileSystem (healthyDrive (build allSucceed { drive := fun _ => 0 } 1).2.drive) .boot = some (.ok (true, s)) ∧
    shell (healthyDrive (build allSucceed { drive := fun _ => 0 } 1).2.drive) s [catB] = .ok t ∧
    t.out = s.out ++ (str ['/', '$', ' ', 'B'] ++ noSuchFile) := by
  have hbuilt : (build allSucceed { drive := fun _ => 0 } 1).1 = 0 := by decide
  generalize hdrive : (build allSucceed { drive := fun _ => 0 } 1).2.drive = drive
  have hdisk : (healthyDrive drive).disk = (build allSucceed { drive := fun _ => 0 } 1).2.drive := hdrive.symm
  obtain ⟨s, hload, hruns⟩ := built_shell hbuilt hdisk rfl (healthyDrive_good drive)
  obtain ⟨t, hrun, hout⟩ := hruns [catB]
  exact ⟨s, t, hload, hrun, hout⟩

end SoreOS.MediaUtility
