import Rtl8189.ShellText

/-!
# The quoting of the rollback state

The installer of a test boot keeps its variables in a file that it sources later.
-/
namespace Rtl8189.StateQuote

open ShellText

/-- The script is `s/'/'\\''/g`, in which `sed` reads the two backslashes as one. -/
def sedQuotes (text : Text) : Text := sedLines (List.flatMap escapeQuote) [] text

def quoteSh (s : Text) : Text := '\'' :: (sedQuotes s ++ ['\''])

def printfLine (name : Text) (value : Text) : Text :=
  name ++ '=' :: (commandSubst (quoteSh value) ++ ['\n'])

def writeState (bootDir backupDir dtbRelpath rollbackDelay : Value) : Text :=
  printfLine "BOOT_DIR".toList bootDir ++
    printfLine "BACKUP_DIR".toList backupDir ++
    printfLine "DTB_REL_PATH".toList dtbRelpath ++
    printfLine "ROLLBACK_DELAY_SECONDS".toList rollbackDelay

theorem quoteSh_eq (s : Text) : quoteSh s = '\'' :: (s.flatMap escapeQuote ++ ['\'']) := by
  unfold quoteSh sedQuotes
  rw [sedLines_flatMap escapeQuote rfl]
  rfl

theorem nul_not_mem_escaped {s : Text} (hs : Char.ofNat 0 ∉ s) :
    Char.ofNat 0 ∉ s.flatMap escapeQuote := by
  intro hmem
  obtain ⟨c, hc, hnul⟩ := List.mem_flatMap.1 hmem
  unfold escapeQuote at hnul
  split_ifs at hnul
  · exact absurd hnul (by decide)
  · exact hs (List.mem_singleton.1 hnul ▸ hc)

theorem printfLine_eq (name : Text) (value : Value) :
    printfLine name value = assignLine name value := by
  have hnul : Char.ofNat 0 ∉ quoteSh value := by
    rw [quoteSh_eq]
    intro hmem
    obtain h | h := List.mem_cons.1 hmem
    · exact absurd h (by decide)
    · obtain h | h := List.mem_append.1 h
      · exact nul_not_mem_escaped value.2 h
      · exact absurd (List.mem_singleton.1 h) (by decide)
  have hsubst : commandSubst (quoteSh value) = quoteSh value :=
    commandSubst_of_last (c := '\'') hnul (by decide) ⟨_, List.cons_append.symm⟩
  unfold printfLine assignLine
  rw [hsubst, quoteSh_eq]
  simp

theorem stateNames_isName : ∀ name ∈ ["BOOT_DIR".toList, "BACKUP_DIR".toList,
    "DTB_REL_PATH".toList, "ROLLBACK_DELAY_SECONDS".toList], IsName name := by
  decide

/-- The file is read back to the four values, and nothing but the assignments is done. -/
theorem source_writeState (bootDir backupDir dtbRelpath rollbackDelay : Value) :
    source (writeState bootDir backupDir dtbRelpath rollbackDelay) =
      [.assign "BOOT_DIR".toList bootDir,
        .assign "BACKUP_DIR".toList backupDir,
        .assign "DTB_REL_PATH".toList dtbRelpath,
        .assign "ROLLBACK_DELAY_SECONDS".toList rollbackDelay] := by
  have hlines := source_assignLines [("BOOT_DIR".toList, bootDir.1),
    ("BACKUP_DIR".toList, backupDir.1), ("DTB_REL_PATH".toList, dtbRelpath.1),
    ("ROLLBACK_DELAY_SECONDS".toList, rollbackDelay.1)] ?_
  · unfold writeState
    simpa only [printfLine_eq, List.flatMap_cons, List.flatMap_nil, List.append_nil,
      List.append_assoc, List.map_cons, List.map_nil] using hlines
  · intro l hl
    simp only [List.mem_cons, List.not_mem_nil, or_false] at hl
    obtain rfl | rfl | rfl | rfl := hl
    · exact stateNames_isName _ (.head _)
    · exact stateNames_isName _ (.tail _ (.head _))
    · exact stateNames_isName _ (.tail _ (.tail _ (.head _)))
    · exact stateNames_isName _ (.tail _ (.tail _ (.tail _ (.head _))))

end Rtl8189.StateQuote
