import Mathlib.Data.BitVec
import Rtl8189.AwaitSeq

/-!
# Power sequences

`HalPwrSeqCmdParsing` carries out a table of commands on the registers of the chip. A
command is skipped when its masks do not match the chip and the interface. The count of
unanswered polls is not started again for the next polling command, so that all of them
share it, and a table is read on until a command that matches ends it.
-/
namespace Rtl8189.PowerSeq

open AwaitSeq

inductive PwrCmd where
  | read
  | write
  | polling
  | delay
  | stop
  deriving DecidableEq

inductive PwrBase where
  | mac
  | usb
  | pcie
  | sdio
  deriving DecidableEq

structure WlanPwrCfg where
  offset : ℕ
  cutMsk : BitVec 8
  fabMsk : BitVec 4
  interfaceMsk : BitVec 4
  base : PwrBase
  cmd : PwrCmd
  msk : BitVec 8
  value : BitVec 8
  deriving DecidableEq

/-- The system registers, and the local ones of the SDIO interface. -/
inductive Space where
  | system
  | sdioLocal
  deriving DecidableEq

abbrev File := Space → ℕ → BitVec 8

def File.put (r : File) (p : Space) (o : ℕ) (v : BitVec 8) : File := fun q x =>
  if q = p ∧ x = o then v else r q x

/-- A chip with its registers. It changes by itself while time passes, and at least between
any two accesses. -/
structure Chip (σ : Type*) where
  regs : σ → File
  idle : ℕ → σ → σ
  store : Space → ℕ → BitVec 8 → σ → σ
  regs_store : ∀ p o v s, regs (store p o v s) = (regs s).put p o v

structure Version where
  cut : BitVec 8
  fab : BitVec 8
  interface : BitVec 8

namespace WlanPwrCfg

def matched (v : Version) (c : WlanPwrCfg) : Bool :=
  c.fabMsk.setWidth 8 &&& v.fab ≠ 0 ∧ c.cutMsk &&& v.cut ≠ 0 ∧
    c.interfaceMsk.setWidth 8 &&& v.interface ≠ 0

def space (c : WlanPwrCfg) : Space := if c.base = .sdio then .sdioLocal else .system

def merged (c : WlanPwrCfg) (old : BitVec 8) : BitVec 8 :=
  (old &&& ~~~c.msk) ||| (c.value &&& c.msk)

end WlanPwrCfg

section Parsing

variable {σ : Type*} (chip : Chip σ) (v : Version) (c : WlanPwrCfg)

def Chip.write (s : σ) : σ :=
  let s := chip.idle 0 s
  let old := chip.regs s c.space c.offset
  chip.store c.space c.offset (c.merged old) (chip.idle 0 s)

/-- One poll, and the pause behind it if the value is not there. -/
def Chip.poll (s : σ) : Bool × σ :=
  let s := chip.idle 0 s
  let hit := chip.regs s c.space c.offset &&& c.msk = c.value &&& c.msk
  (hit, if hit then s else chip.idle 10 s)

def maxPollingCnt : ℕ := 5000

/-- The polling loop, in which `pollingCount++ > maxPollingCnt` is false so many times more.
The count is compared also where the value was there. -/
def Chip.polling : ℕ → σ → Option ℕ × σ
  | 0, s => (none, (chip.poll c s).2)
  | n + 1, s =>
    if (chip.poll c s).1 then (some n, (chip.poll c s).2) else polling n (chip.poll c s).2

def WlanPwrCfg.delay : ℕ := if c.value = 0 then c.offset else c.offset * 1000

/-- `none` where the table has no end. The retry on a PCIe bus, and with it the count of
100000, is not reached: no chip has `HW_VAR_PWR_CMD`. -/
def parseFrom : ℕ → List WlanPwrCfg → σ → Option (Bool × σ)
  | _, [], _ => none
  | polls, c :: l, s =>
    if c.matched v then
      match c.cmd with
      | .read => parseFrom polls l s
      | .write => parseFrom polls l (chip.write c s)
      | .polling =>
        match chip.polling c polls s with
        | (none, t) => some (false, t)
        | (some left, t) => parseFrom left l t
      | .delay => parseFrom polls l (chip.idle c.delay s)
      | .stop => some (true, s)
    else parseFrom polls l s

def halPwrSeqCmdParsing (l : List WlanPwrCfg) (s : σ) : Option (Bool × σ) :=
  parseFrom chip v (maxPollingCnt + 1) l s

end Parsing

/-! ## The tables of the 8188E -/

def anyChip (offset : ℕ) (interfaceMsk : BitVec 4) (base : PwrBase) (cmd : PwrCmd)
    (msk value : BitVec 8) : WlanPwrCfg :=
  ⟨offset, 0xff, 0xf, interfaceMsk, base, cmd, msk, value⟩

def transCardemuToAct : List WlanPwrCfg :=
  [anyChip 0x06 0xf .mac .polling 0x02 0x02, anyChip 0x02 0xf .mac .write 0x03 0x00,
    anyChip 0x26 0xf .mac .write 0x80 0x80, anyChip 0x05 0xf .mac .write 0x80 0x00,
    anyChip 0x05 0xf .mac .write 0x18 0x00, anyChip 0x05 0xf .mac .write 0x01 0x01,
    anyChip 0x05 0xf .mac .polling 0x01 0x00, anyChip 0x23 0xf .mac .write 0x10 0x00]

def transActToCardemu : List WlanPwrCfg :=
  [anyChip 0x1f 0xf .mac .write 0xff 0x00, anyChip 0x23 0xf .mac .write 0x10 0x10,
    anyChip 0x05 0xf .mac .write 0x02 0x02, anyChip 0x05 0xf .mac .polling 0x02 0x00]

def transCardemuToCarddis : List WlanPwrCfg :=
  [anyChip 0x26 0xf .mac .write 0x80 0x80, anyChip 0x05 0x3 .mac .write 0x18 0x08,
    anyChip 0x07 0x3 .mac .write 0xff 0x00, anyChip 0x41 0x3 .mac .write 0x10 0x00,
    anyChip 0xfe10 0x2 .mac .write 0x10 0x10, anyChip 0x86 0x1 .sdio .write 0x01 0x01,
    anyChip 0x86 0x1 .sdio .polling 0x02 0x00]

def transCarddisToCardemu : List WlanPwrCfg :=
  [anyChip 0x86 0x1 .sdio .write 0x01 0x00, anyChip 0x86 0x1 .sdio .polling 0x02 0x02,
    anyChip 0x05 0xf .mac .write 0x18 0x00]

def transActToLps : List WlanPwrCfg :=
  [anyChip 0x522 0xf .mac .write 0xff 0x7f, anyChip 0x5f8 0xf .mac .polling 0xff 0x00,
    anyChip 0x5f9 0xf .mac .polling 0xff 0x00, anyChip 0x5fa 0xf .mac .polling 0xff 0x00,
    anyChip 0x5fb 0xf .mac .polling 0xff 0x00, anyChip 0x02 0xf .mac .write 0x01 0x00,
    anyChip 0x02 0xf .mac .delay 0x00 0x00, anyChip 0x100 0xf .mac .write 0xff 0x3f,
    anyChip 0x101 0xf .mac .write 0x02 0x00, anyChip 0x553 0xf .mac .write 0x20 0x20]

def transEnd : List WlanPwrCfg := [anyChip 0xffff 0xf .mac .stop 0x00 0x00]

def cardEnableFlow : List WlanPwrCfg := transCarddisToCardemu ++ transCardemuToAct ++ transEnd

def cardDisableFlow : List WlanPwrCfg := transActToCardemu ++ transCardemuToCarddis ++ transEnd

def enterLpsFlow : List WlanPwrCfg := transActToLps ++ transEnd

/-- `PWR_CUT_ALL_MSK`, `PWR_FAB_ALL_MSK` and `PWR_INTF_SDIO_MSK`, as the callers give them. -/
def sdioVersion : Version := ⟨0xff, 0x0f, 0x01⟩

/-! ## What a table says -/

def Agree (m r r' : File) : Prop := ∀ p o, r p o &&& m p o = r' p o &&& m p o

namespace WlanPwrCfg

def command {σ : Type*} (chip : Chip σ) (c : WlanPwrCfg) : Cmd σ :=
  match c.cmd with
  | .polling => .await (chip.poll c)
  | .write => .act (chip.write c)
  | .delay => .act (chip.idle c.delay)
  | .read | .stop => .act id

def effect (c : WlanPwrCfg) (r : File) : File :=
  if c.cmd = .write then r.put c.space c.offset (c.merged (r c.space c.offset)) else r

end WlanPwrCfg

def steps (v : Version) : List WlanPwrCfg → List WlanPwrCfg
  | [] => []
  | c :: l => if c.matched v then if c.cmd = .stop then [] else c :: steps v l else steps v l

def Ended (v : Version) (l : List WlanPwrCfg) : Prop := ∃ c ∈ l, c.matched v = true ∧ c.cmd = .stop

def programmed (l : List WlanPwrCfg) (r : File) : File := l.foldl (fun r c => c.effect r) r

def Chip.Leaves {σ : Type*} (chip : Chip σ) (m : File) : Prop :=
  ∀ us s, Agree m (chip.regs (chip.idle us s)) (chip.regs s)

section Spec

variable {σ : Type*} {chip : Chip σ} {v : Version} {c : WlanPwrCfg} {l : List WlanPwrCfg}
  {m r r' r'' : File}

theorem Agree.trans (h : Agree m r r') (h' : Agree m r' r'') : Agree m r r'' := fun p o =>
  (h p o).trans (h' p o)

theorem merged_and {a b n : BitVec 8} (h : a &&& n = b &&& n) :
    c.merged a &&& n = c.merged b &&& n := by
  have hsplit : ∀ x : BitVec 8,
      c.merged x &&& n = ((x &&& n) &&& ~~~c.msk) ||| (c.value &&& c.msk &&& n) := by
    intro x
    rw [WlanPwrCfg.merged, BitVec.and_or_distrib_right, BitVec.and_assoc,
      BitVec.and_comm (~~~c.msk), ← BitVec.and_assoc]
  rw [hsplit a, hsplit b, h]

theorem Agree.effect (h : Agree m r r') (hw : c.cmd = .write) :
    Agree m (r.put c.space c.offset (c.merged (r c.space c.offset))) (c.effect r') := by
  intro p o
  rw [WlanPwrCfg.effect, if_pos hw, File.put, File.put]
  split_ifs with hpo
  · rw [hpo.1, hpo.2]
    exact merged_and (h c.space c.offset)
  · exact h p o

theorem write_follows (hl : chip.Leaves m) (hw : c.cmd = .write) {s : σ}
    (h : Agree m (chip.regs s) r) : Agree m (chip.regs (chip.write c s)) (c.effect r) := by
  have hread := (hl 0 s).trans h
  have hagain := hl 0 (chip.idle 0 s)
  rw [Chip.write, chip.regs_store]
  intro p o
  have heff := hread.effect hw p o
  rw [File.put] at heff ⊢
  split_ifs with hpo
  · rwa [if_pos hpo] at heff
  · rw [if_neg hpo] at heff
    rw [hagain p o]
    exact heff

theorem poll_follows (hl : chip.Leaves m) {s : σ} (h : Agree m (chip.regs s) r) :
    Agree m (chip.regs (chip.poll c s).2) r := by
  have hread := (hl 0 s).trans h
  rw [Chip.poll]
  simp only
  split_ifs
  · exact hread
  · exact (hl 10 _).trans hread

theorem polling_eq (n : ℕ) (s : σ) : chip.polling c n s = awaitYes (chip.poll c) n s := by
  induction n generalizing s with
  | zero => rfl
  | succ n ih => rw [Chip.polling, awaitYes, ih]

/-- A table with an end is read no further, and does what its commands say. -/
theorem parseFrom_eq (h : Ended v l) (n : ℕ) (s : σ) :
    parseFrom chip v n l s = some (run ((steps v l).map (WlanPwrCfg.command chip)) n s) := by
  induction l generalizing n s with
  | nil =>
    obtain ⟨c, hmem, -⟩ := h
    cases hmem
  | cons c l ih =>
    rw [parseFrom, steps]
    by_cases hm : c.matched v = true
    · rw [if_pos hm, if_pos hm]
      by_cases hstop : c.cmd = .stop
      · rw [if_pos hstop, hstop]
        rfl
      · have hrest : Ended v l := by
          obtain ⟨d, hmem, hd, hdstop⟩ := h
          cases hmem with
          | head => exact absurd hdstop hstop
          | tail _ hmem => exact ⟨d, hmem, hd, hdstop⟩
        rw [if_neg hstop, List.map_cons, WlanPwrCfg.command]
        cases hcmd : c.cmd with
        | read => exact ih hrest n s
        | write => exact ih hrest n _
        | delay => exact ih hrest n _
        | stop => exact absurd hcmd hstop
        | polling =>
          simp only [polling_eq, run]
          generalize awaitYes (chip.poll c) n s = r
          obtain ⟨left, t⟩ := r
          cases left with
          | none => rfl
          | some left => exact ih hrest left t
    · rw [if_neg hm, if_neg hm]
      refine ih ?_ n s
      obtain ⟨d, hmem, hd, hdstop⟩ := h
      cases hmem with
      | head => exact absurd hd hm
      | tail _ hmem => exact ⟨d, hmem, hd, hdstop⟩

theorem command_await {ask : σ → Bool × σ} (h : c.command chip = .await ask) :
    c.cmd = .polling ∧ ask = chip.poll c := by
  rw [WlanPwrCfg.command] at h
  cases hcmd : c.cmd with
  | polling =>
    rw [hcmd] at h
    cases h
    exact ⟨rfl, rfl⟩
  | read | write | delay | stop =>
    rw [hcmd] at h
    cases h

theorem act_follows (hl : chip.Leaves m) {f : σ → σ} (h : c.command chip = .act f) {s : σ}
    (hr : Agree m (chip.regs s) r) : Agree m (chip.regs (f s)) (c.effect r) := by
  rw [WlanPwrCfg.command] at h
  cases hcmd : c.cmd with
  | polling =>
    rw [hcmd] at h
    cases h
  | write =>
    rw [hcmd] at h
    cases h
    exact write_follows hl hcmd hr
  | delay =>
    rw [hcmd] at h
    cases h
    rw [WlanPwrCfg.effect, hcmd, if_neg (by decide)]
    exact (hl _ s).trans hr
  | read | stop =>
    rw [hcmd] at h
    cases h
    rw [WlanPwrCfg.effect, hcmd, if_neg (by decide)]
    exact hr

/-- The parser succeeds just when the values polled for come within the 5001 polls that all
commands share. Wherever it stops, the bits that the chip leaves alone are those of the writes
up to there. -/
theorem parsing_spec (hl : chip.Leaves m) (hend : Ended v l) (s : σ) :
    ∃ ok t, halPwrSeqCmdParsing chip v l s = some (ok, t) ∧
      (∀ u, (ok, t) = (true, u) ↔
        ∃ n ≤ 5001, Does ((steps v l).map (WlanPwrCfg.command chip)) n s u) ∧
      ∃ done rest, steps v l = done ++ rest ∧
        Agree m (chip.regs t) (programmed done (chip.regs s)) ∧
        if ok then rest = [] else ∃ c l', rest = c :: l' ∧ c.cmd = .polling := by
  obtain ⟨done, rest, hsplit, hstops, hagree⟩ := run_follows (WlanPwrCfg.command chip)
    WlanPwrCfg.effect (fun s r => Agree m (chip.regs s) r)
    (fun c f hc s r hr => act_follows hl hc hr)
    (fun c ask hc s r hr => by
      obtain ⟨hcmd, rfl⟩ := command_await hc
      refine ⟨poll_follows hl hr, ?_⟩
      rw [WlanPwrCfg.effect, hcmd, if_neg (by decide)])
    (steps v l) (maxPollingCnt + 1) (s := s) (a := chip.regs s) fun _ _ => rfl
  refine ⟨_, _, parseFrom_eq hend _ s, fun u => run_true_iff, done, rest, hsplit, hagree, ?_⟩
  rw [Stops] at hstops
  split_ifs at hstops ⊢ with hok
  · exact hstops
  · obtain ⟨c, l', ask, hrest, hc⟩ := hstops
    exact ⟨c, l', hrest, (command_await hc).1⟩

end Spec

def answering : Chip File where
  regs r := r
  idle _ r := fun p o =>
    if p = .system ∧ o = 0x06 then r p o ||| 0x02
    else if p = .system ∧ o = 0x05 then r p o &&& 0xfe
    else if p = .sdioLocal ∧ o = 0x86 then r p o ||| 0x02 else r p o
  store p o v r := r.put p o v
  regs_store _ _ _ _ := rfl

def unpolled : File := fun p o =>
  if p = .system ∧ o = 0x06 then 0xfd
  else if p = .system ∧ o = 0x05 then 0xfe
  else if p = .sdioLocal ∧ o = 0x86 then 0xfd else 0xff

theorem answering_leaves : answering.Leaves unpolled := by
  intro us r p o
  have hset : ∀ x : BitVec 8, (x ||| 0x02) &&& 0xfd = x &&& 0xfd := by
    intro x
    have hout : (0x02 : BitVec 8) &&& 0xfd = 0#8 := by decide
    rw [BitVec.and_or_distrib_right, hout, BitVec.or_zero]
  have hclear : ∀ x : BitVec 8, (x &&& 0xfe) &&& 0xfe = x &&& 0xfe := by
    intro x
    rw [BitVec.and_assoc, BitVec.and_self]
  simp only [answering, unpolled]
  split_ifs
  · exact hset _
  · exact hclear _
  · exact hset _
  · rfl

theorem flows_ended : ∀ l ∈ [cardEnableFlow, cardDisableFlow, enterLpsFlow],
    Ended sdioVersion l := by
  unfold Ended
  decide

theorem parsing_spec_enable :
    ∃ t, halPwrSeqCmdParsing answering sdioVersion cardEnableFlow (fun _ _ => 0) = some (true, t) ∧
      Agree unpolled t (programmed (steps sdioVersion cardEnableFlow) fun _ _ => 0) := by
  obtain ⟨ok, t, hrun, -, done, rest, hsplit, hagree, hrest⟩ := parsing_spec answering_leaves
    (flows_ended cardEnableFlow (by decide)) fun _ _ => 0
  have hok : (halPwrSeqCmdParsing answering sdioVersion cardEnableFlow fun _ _ => 0).map Prod.fst =
      some true := by decide +kernel
  rw [hrun] at hok
  cases hok
  cases hrest
  rw [List.append_nil] at hsplit
  exact ⟨t, hrun, hsplit ▸ hagree⟩

end Rtl8189.PowerSeq
