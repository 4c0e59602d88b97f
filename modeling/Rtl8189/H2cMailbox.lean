import Mathlib.Data.List.GetD
import Rtl8189.EventRun
import Rtl8189.FieldWidths

/-!
# The mailboxes to the firmware

`FillH2CCmd_88E` writes a command byte by byte into one of four boxes, the extension first,
when the firmware has read what was in it. The chip marks a box as full at the write of one
of its bytes, and the firmware takes the boxes in turn, at any time. Every register access is
carried out.
-/
namespace Rtl8189.H2cMailbox

open EventRun

def regHmebox0 : ℕ := 0x1d0

def regHmeboxExt0 : ℕ := 0x1f0

def maxH2cBoxNums : ℕ := 4

def maxCmdLen : ℕ := 7

def retryCnts : ℕ := 100

/-- What `FillH2CCmd_88E` is called with; `CmdLen` is the length of the buffer. -/
structure H2cCmd where
  elementId : UInt8
  cmdBuffer : List UInt8
  deriving DecidableEq

namespace H2cCmd

def pad (n : ℕ) (l : List UInt8) : List UInt8 := l ++ List.replicate (n - l.length) 0

def h2cCmd (c : H2cCmd) : List UInt8 := pad 4 (c.elementId :: c.cmdBuffer.take 3)

def h2cCmdEx (c : H2cCmd) : List UInt8 := pad 4 (c.cmdBuffer.drop 3)

def message (c : H2cCmd) : List UInt8 := c.elementId :: pad maxCmdLen c.cmdBuffer

/-- The bytes in the order in which they are written. -/
def byte (c : H2cCmd) (k : ℕ) : UInt8 :=
  if k < 4 then c.h2cCmdEx.getD k 0 else c.h2cCmd.getD (k - 4) 0

end H2cCmd

def address (b k : ℕ) : ℕ :=
  if k < 4 then regHmeboxExt0 + b * 4 + k else regHmebox0 + b * 4 + (k - 4)

structure Chip where
  regs : ℕ → UInt8 := fun _ => 0
  /-- The bits of `REG_HMETFR`. -/
  hmetfr : ℕ → Bool := fun _ => false

namespace Chip

/-- A write of byte `t` of a box marks it as full. -/
def write (t : Fin 4) (chip : Chip) (addr : ℕ) (v : UInt8) : Chip where
  regs := Function.update chip.regs addr v
  hmetfr b := chip.hmetfr b || addr == regHmebox0 + b * 4 + t

def read (chip : Chip) (b : ℕ) : List UInt8 :=
  [4, 5, 6, 7, 0, 1, 2, 3].map fun k => chip.regs (address b k)

end Chip

/-- The call that holds `h2c_fwcmd_mutex`: it polls its box, with `since` commands taken by
the firmware when it began, or comes to write byte `k`. -/
inductive Driver where
  | idle
  | polling (c : H2cCmd) (retryCnts since : ℕ)
  | writing (c : H2cCmd) (k : ℕ)

/-- A call that gave up: how many commands had been taken when it began and when it ended,
and how many had been accepted. -/
structure Refusal where
  since : ℕ
  taken : ℕ
  accepted : ℕ

structure Sys where
  chip : Chip := {}
  lastHMEBoxNum : ℕ := 0
  driver : Driver := .idle
  /-- The box that the firmware looks at next. -/
  fwBox : ℕ := 0
  accepted : List H2cCmd := []
  taken : List (List UInt8) := []
  refused : List Refusal := []

inductive Event where
  | call (bFWReady removed : Bool) (elementId : UInt8) (cmdBuffer : Option (List UInt8))
  | access
  | take

namespace Sys

def fillH2cCmd (s : Sys) (bFWReady removed : Bool) (elementId : UInt8) :
    Option (List UInt8) → Driver
  | none => .idle
  | some cmdBuffer =>
    if bFWReady = false ∨ maxCmdLen < cmdBuffer.length ∨ removed = true then .idle
    else .polling ⟨elementId, cmdBuffer⟩ retryCnts s.taken.length

def poll (s : Sys) (c : H2cCmd) (n since : ℕ) : Sys :=
  if s.chip.hmetfr s.lastHMEBoxNum = false then { s with driver := .writing c 0 }
  else
    match n with
    | 0 =>
      { s with
        driver := .idle
        refused := ⟨since, s.taken.length, s.accepted.length⟩ :: s.refused }
    | n + 1 => { s with driver := .polling c n since }

def put (t : Fin 4) (s : Sys) (c : H2cCmd) (k : ℕ) : Sys :=
  let chip := s.chip.write t (address s.lastHMEBoxNum k) (c.byte k)
  if k < 7 then { s with chip := chip, driver := .writing c (k + 1) }
  else
    { s with
      chip := chip
      lastHMEBoxNum := (s.lastHMEBoxNum + 1) % maxH2cBoxNums
      driver := .idle
      accepted := s.accepted ++ [c] }

def take (s : Sys) : Sys :=
  if s.chip.hmetfr s.fwBox then
    { s with
      chip := { s.chip with hmetfr := Function.update s.chip.hmetfr s.fwBox false }
      fwBox := (s.fwBox + 1) % maxH2cBoxNums
      taken := s.taken ++ [s.chip.read s.fwBox] }
  else s

end Sys

/-- A call waits for the mutex until the one before has returned; an access is the next one
of the call that is under way. -/
def step (t : Fin 4) (s : Sys) : Event → Sys
  | .call bFWReady removed elementId cmdBuffer =>
    match s.driver with
    | .idle => { s with driver := s.fillH2cCmd bFWReady removed elementId cmdBuffer }
    | _ => s
  | .access =>
    match s.driver with
    | .idle => s
    | .polling c n since => s.poll c n since
    | .writing c k => s.put t c k
  | .take => s.take

/-- The firmware gets the accepted commands, each once and whole, in their order; and a call
gives up only if all boxes were full and the firmware took nothing while it waited. -/
structure Faithful (s : Sys) : Prop where
  room : s.taken.length ≤ s.accepted.length ∧ s.accepted.length ≤ s.taken.length + 4
  inOrder : s.taken = (s.accepted.take s.taken.length).map H2cCmd.message
  refusals : ∀ r ∈ s.refused, r.since = r.taken ∧ r.accepted = r.taken + 4

/-! ## A box -/

section Box

variable {c : H2cCmd} {b b' k j : ℕ} {chip : Chip} {v : UInt8}

theorem getD_pad (n i : ℕ) (l : List UInt8) : (H2cCmd.pad n l).getD i 0 = l.getD i 0 := by
  rw [H2cCmd.pad]
  by_cases hi : i < l.length
  · exact List.getD_append _ _ _ _ hi
  · rw [List.getD_append_right _ _ _ _ (Nat.le_of_not_lt hi),
      List.getD_eq_default l _ (Nat.le_of_not_lt hi), List.getD_eq_getElem?_getD,
      List.getElem?_replicate]
    split_ifs <;> rfl

theorem pad_eq_map {n : ℕ} {l : List UInt8} (h : l.length ≤ n) :
    H2cCmd.pad n l = (List.range n).map fun i => l.getD i 0 := by
  apply List.ext_getElem
  · rw [H2cCmd.pad, List.length_append, List.length_replicate, List.length_map,
      List.length_range]
    omega
  · intro i hi hi'
    rw [List.getElem_map, List.getElem_range, ← getD_pad n, List.getD_eq_getElem _ _ hi]

/-- The bytes of a command make up the message. -/
theorem message_eq (h : c.cmdBuffer.length ≤ maxCmdLen) :
    [4, 5, 6, 7, 0, 1, 2, 3].map c.byte = c.message := by
  have hex : ∀ i, c.h2cCmdEx.getD i 0 = c.cmdBuffer.getD (3 + i) 0 := by
    intro i
    rw [H2cCmd.h2cCmdEx, getD_pad, List.getD_eq_getElem?_getD, List.getElem?_drop,
      List.getD_eq_getElem?_getD]
  have hmain : ∀ i < 3, c.h2cCmd.getD (i + 1) 0 = c.cmdBuffer.getD i 0 := by
    intro i hi
    rw [H2cCmd.h2cCmd, getD_pad, List.getD_cons_succ, List.getD_eq_getElem?_getD,
      List.getElem?_take_of_lt hi, List.getD_eq_getElem?_getD]
  have hfirst : c.h2cCmd.getD 0 0 = c.elementId := by
    rw [H2cCmd.h2cCmd, getD_pad, List.getD_cons_zero]
  rw [H2cCmd.message, pad_eq_map h]
  change [c.h2cCmd.getD 0 0, c.h2cCmd.getD 1 0, c.h2cCmd.getD 2 0, c.h2cCmd.getD 3 0,
    c.h2cCmdEx.getD 0 0, c.h2cCmdEx.getD 1 0, c.h2cCmdEx.getD 2 0, c.h2cCmdEx.getD 3 0] =
      c.elementId :: [0, 1, 2, 3, 4, 5, 6].map fun i => c.cmdBuffer.getD i 0
  rw [hfirst, hmain 0 (by omega), hmain 1 (by omega), hmain 2 (by omega), hex, hex, hex, hex]
  rfl

theorem address_inj (hb : b < 4) (hb' : b' < 4) (hk : k < 8) (hj : j < 8) :
    address b k = address b' j ↔ b = b' ∧ k = j := by
  rw [address, address, regHmebox0, regHmeboxExt0]
  split_ifs <;> omega

theorem read_eq (h : c.cmdBuffer.length ≤ maxCmdLen)
    (hbytes : ∀ k < 8, chip.regs (address b k) = c.byte k) : chip.read b = c.message := by
  rw [← message_eq h, Chip.read]
  refine List.map_congr_left fun k hk => hbytes k ?_
  revert k
  decide

theorem read_write (t : Fin 4) (hb : b < 4) (hb' : b' < 4) (hne : b' ≠ b) (hk : k < 8) :
    (chip.write t (address b k) v).read b' = chip.read b' := by
  refine List.map_congr_left fun j hj => ?_
  have hj8 : j < 8 := by
    revert j
    decide
  exact Function.update_of_ne (fun heq => hne ((address_inj hb' hb hj8 hk).1 heq).1) _ _

/-- The last byte that is written, and no other, is byte 3 of the box. -/
theorem marks_iff (hb : b < 4) (hb' : b' < 4) (hk : k < 8) :
    address b k = regHmebox0 + b' * 4 + 3 ↔ b = b' ∧ k = 7 := by
  have heq : regHmebox0 + b' * 4 + 3 = address b' 7 := rfl
  rw [heq, address_inj hb hb' hk (by omega)]

end Box

/-! ## Runs -/

section Runs

variable {s : Sys}

/-- The call under way has a command that the boxes can hold. A box that is written to is free,
and has the bytes written so far. -/
def DriverOk (s : Sys) : Driver → Prop
  | .idle => True
  | .polling c _ since =>
    c.cmdBuffer.length ≤ maxCmdLen ∧ since ≤ s.taken.length ∧ s.accepted.length ≤ since + 4
  | .writing c k =>
    c.cmdBuffer.length ≤ maxCmdLen ∧ k < 8 ∧ s.accepted.length < s.taken.length + 4 ∧
      ∀ j < k, s.chip.regs (address (s.accepted.length % 4) j) = c.byte j

/-- The boxes from the firmware's next one on hold what was accepted and not yet taken. -/
structure Inv (s : Sys) : Prop where
  faithful : Faithful s
  last : s.lastHMEBoxNum = s.accepted.length % 4
  next : s.fwBox = s.taken.length % 4
  full : ∀ i, s.taken.length ≤ i → i < s.taken.length + 4 →
    s.chip.hmetfr (i % 4) = decide (i < s.accepted.length)
  holds : ∀ i (h : i < s.accepted.length), s.taken.length ≤ i →
    s.chip.read (i % 4) = s.accepted[i].message
  driver : DriverOk s s.driver

theorem Faithful.same (h : Faithful s) {chip : Chip} {b b' : ℕ} {d : Driver} :
    Faithful ⟨chip, b, d, b', s.accepted, s.taken, s.refused⟩ :=
  ⟨h.room, h.inOrder, h.refusals⟩

theorem Inv.box_full (h : Inv s) :
    s.chip.hmetfr s.lastHMEBoxNum = decide (s.accepted.length = s.taken.length + 4) := by
  have hroom := h.faithful.room
  rw [h.last]
  by_cases heq : s.accepted.length = s.taken.length + 4
  · have hfull := h.full s.taken.length (Nat.le_refl _) (by omega)
    rw [heq, Nat.add_mod_right, hfull, decide_eq_true (by omega), decide_eq_true rfl]
  · rw [h.full _ hroom.1 (by omega), decide_eq_false (Nat.lt_irrefl _), decide_eq_false heq]

theorem Inv.call (h : Inv s) (bFWReady removed : Bool)
    (elementId : UInt8) (cmdBuffer : Option (List UInt8)) :
    Inv { s with driver := s.fillH2cCmd bFWReady removed elementId cmdBuffer } := by
  refine ⟨h.faithful.same, h.last, h.next, h.full, h.holds, ?_⟩
  cases cmdBuffer with
  | none => trivial
  | some buf =>
    change DriverOk _ (if _ then _ else _)
    split_ifs with hearly
    · trivial
    · have hlen : buf.length ≤ maxCmdLen := Nat.le_of_not_lt fun hlt => hearly (.inr (.inl hlt))
      exact ⟨hlen, Nat.le_refl _, h.faithful.room.2⟩

/-- A call that gives up has found all boxes full since it began. -/
theorem Inv.poll (h : Inv s) {c : H2cCmd} {n since : ℕ} (hdriver : s.driver = .polling c n since) :
    Inv (s.poll c n since) := by
  have hcall := h.driver
  rw [hdriver] at hcall
  obtain ⟨hlen, hsince, hroom⟩ := hcall
  unfold Sys.poll
  rw [h.box_full]
  by_cases heq : s.accepted.length = s.taken.length + 4
  · rw [if_neg (by simp [heq])]
    cases n with
    | zero =>
      refine ⟨⟨h.faithful.room, h.faithful.inOrder, ?_⟩, h.last, h.next, h.full, h.holds, trivial⟩
      intro r hr
      cases hr with
      | head => exact ⟨by dsimp only; omega, heq⟩
      | tail _ hr => exact h.faithful.refusals r hr
    | succ n => exact ⟨h.faithful.same, h.last, h.next, h.full, h.holds, hlen, hsince, hroom⟩
  · rw [if_pos (decide_eq_false heq)]
    have hfree : s.accepted.length < s.taken.length + 4 := by
      have := h.faithful.room.2
      omega
    have hnone : ∀ j < 0, s.chip.regs (address (s.accepted.length % 4) j) = c.byte j :=
      fun j hj => absurd hj (Nat.not_lt_zero j)
    exact ⟨h.faithful.same, h.last, h.next, h.full, h.holds, hlen, Nat.succ_pos 7, hfree, hnone⟩

theorem Inv.put (h : Inv s) {c : H2cCmd} {k : ℕ} (hdriver : s.driver = .writing c k) :
    Inv (s.put 3 c k) := by
  have hcall := h.driver
  rw [hdriver] at hcall
  obtain ⟨hlen, hk, hfree, hbytes⟩ := hcall
  have hroom := h.faithful.room
  have hb : s.accepted.length % 4 < 4 := Nat.mod_lt _ (by omega)
  rw [Sys.put, h.last]
  generalize hchip : s.chip.write 3 (address (s.accepted.length % 4) k) (c.byte k) = chip
  have hread : ∀ i (hi : i < s.accepted.length), s.taken.length ≤ i →
      chip.read (i % 4) = s.accepted[i].message := by
    intro i hi htaken
    rw [← hchip, read_write 3 hb (Nat.mod_lt _ (by omega)) (by omega) hk, h.holds i hi htaken]
  have hwritten : ∀ j < k + 1, chip.regs (address (s.accepted.length % 4) j) = c.byte j := by
    intro j hj
    rw [← hchip]
    by_cases hjk : j = k
    · rw [hjk]
      exact Function.update_self _ _ _
    · refine (Function.update_of_ne (fun heq => hjk ?_) _ _).trans (hbytes j (by omega))
      exact ((address_inj hb hb (by omega) hk).1 heq).2
  have hmark : ∀ i, s.taken.length ≤ i → i < s.taken.length + 4 →
      chip.hmetfr (i % 4) = decide (i < s.accepted.length ∨ i = s.accepted.length ∧ k = 7) := by
    intro i hi hi'
    have hiff := marks_iff hb (Nat.mod_lt i (by omega)) hk
    rw [← hchip, Bool.decide_or, ← h.full i hi hi']
    exact congrArg (_ || ·) (decide_eq_decide.2 (hiff.trans (by omega)))
  split_ifs with hmore
  · refine ⟨h.faithful.same, rfl, h.next, ?_, hread, hlen, by omega, hfree, hwritten⟩
    intro i hi hi'
    exact (hmark i hi hi').trans (decide_eq_decide.2 (by dsimp only; omega))
  · obtain rfl : k = 7 := by omega
    have hlength : (s.accepted ++ [c]).length = s.accepted.length + 1 := List.length_append
    refine ⟨⟨?_, ?_, h.faithful.refusals⟩, ?_, h.next, ?_, ?_, trivial⟩
    · dsimp only
      omega
    · exact (List.take_append_of_le_length hroom.1).symm ▸ h.faithful.inOrder
    · exact hlength.symm ▸ Nat.mod_add_mod _ _ _
    · intro i hi hi'
      exact (hmark i hi hi').trans (decide_eq_decide.2 (by dsimp only; omega))
    · intro i hi htaken
      dsimp only at hi ⊢
      rw [List.getElem_append]
      split_ifs with hlt
      · exact hread i hlt htaken
      · obtain rfl : i = s.accepted.length := by omega
        rw [List.getElem_singleton]
        exact read_eq hlen hwritten

theorem Inv.take (h : Inv s) : Inv s.take := by
  have hroom := h.faithful.room
  have hnext := h.full s.taken.length (Nat.le_refl _) (by omega)
  rw [Sys.take, h.next]
  split_ifs with hfull
  · have hlt : s.taken.length < s.accepted.length := of_decide_eq_true (hnext ▸ hfull)
    have hmessage := h.holds _ hlt (Nat.le_refl _)
    refine ⟨⟨?_, ?_, h.faithful.refusals⟩, h.last, ?_, ?_, ?_, ?_⟩
    · dsimp only
      rw [List.length_append, List.length_singleton]
      omega
    · rw [List.length_append, List.length_singleton, List.take_succ_eq_append_getElem hlt,
        List.map_append, ← h.faithful.inOrder, hmessage]
      rfl
    · rw [List.length_append, List.length_singleton]
      exact Nat.mod_add_mod _ _ _
    · intro i hi hi'
      dsimp only at hi hi' ⊢
      rw [List.length_append, List.length_singleton] at hi hi'
      by_cases heq : i % 4 = s.taken.length % 4
      · rw [heq, decide_eq_false (by omega)]
        exact Function.update_self _ _ _
      · exact (Function.update_of_ne heq _ _).trans (h.full i (by omega) (by omega))
    · intro i hi htaken
      rw [List.length_append, List.length_singleton] at htaken
      exact h.holds i hi (by omega)
    · have hdriver := h.driver
      revert hdriver
      cases s.driver with
      | idle => exact id
      | polling c n since =>
        rintro ⟨hlen, hsince, hsroom⟩
        exact ⟨hlen, by rw [List.length_append]; omega, hsroom⟩
      | writing c k =>
        rintro ⟨hlen, hk, hfree, hbytes⟩
        exact ⟨hlen, hk, by rw [List.length_append]; dsimp only; omega, hbytes⟩
  · exact h

theorem Inv.step (h : Inv s) (e : Event) : Inv (step 3 s e) := by
  cases e with
  | call bFWReady removed elementId cmdBuffer =>
    rw [H2cMailbox.step]
    cases hdriver : s.driver with
    | idle => exact h.call bFWReady removed elementId cmdBuffer
    | polling c n since => exact h
    | writing c k => exact h
  | access =>
    rw [H2cMailbox.step]
    cases hdriver : s.driver with
    | idle => exact h
    | polling c n since => exact h.poll hdriver
    | writing c k => exact h.put hdriver
  | take => exact h.take

theorem start_inv : Inv {} where
  faithful := ⟨⟨Nat.le_refl _, Nat.zero_le _⟩, rfl, fun r hr => by cases hr⟩
  last := rfl
  next := rfl
  full _ _ _ := (decide_eq_false (Nat.not_lt_zero _)).symm
  holds i hi := absurd hi (Nat.not_lt_zero i)
  driver := trivial

end Runs

/-- The firmware takes a command of three bytes as soon as its box is full. -/
def hasty (t : ℕ) : List Event :=
  .call true false 1 (some [1, 2, 3]) :: List.replicate (6 + t) .access ++ [.take]

/-- Whatever the calls and whenever the firmware comes, the firmware gets what was accepted
just if the chip marks a box as full at its last byte. -/
theorem mailbox_faithful_iff (t : Fin 4) :
    (∀ es, Faithful (run (step t) {} es)) ↔ t = 3 := by
  constructor
  · intro h
    have hroom := (h (hasty t)).room.1
    clear h
    revert t
    decide
  · rintro rfl es
    exact (run_invariant Inv (fun s e hs => hs.step e) start_inv es).faithful

end Rtl8189.H2cMailbox
