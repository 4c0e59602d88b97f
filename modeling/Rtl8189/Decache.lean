import Rtl8189.LastSeen
import Rtl8189.PacketNumber

/-!
# Duplicate frames

`recv_decache` compares the sequence control word of a data frame with the one cached for its
class. The caches for QoS frames start with `0xffff`, those for other frames with what
`_rtw_init_sta_recv_priv` clears them to.
-/
namespace Rtl8189.Decache

open LastSeen PacketNumber

def wRxSeqInitialValue : ℕ := 0xffff

/-- `rtw_alloc_stainfo`, as far as the caches go. -/
def rtwAllocStainfo : RxCache where
  tidRxseq := fun _ => wRxSeqInitialValue
  bmcTidRxseq := fun _ => wRxSeqInitialValue
  nonqosRxseq := 0
  nonqosBmcRxseq := 0

/-- A data frame as `validate_recv_data_frame` hands it to `recv_decache`: the TID is a field
of four bits. -/
structure DataFrame where
  frame : RecvFrame
  tid_lt : frame.attrib.priority < 16

/-- The TID, for a QoS frame, and whether the receiver is a group. -/
abbrev Class := Option ℕ × Bool

def DataFrame.class (f : DataFrame) : Class :=
  (if f.frame.attrib.qos then some f.frame.attrib.priority else none, isMcast f.frame.attrib.ra)

def DataFrame.SameNumber (f g : DataFrame) : Prop :=
  f.frame.attrib.seqNum = g.frame.attrib.seqNum ∧ f.frame.attrib.fragNum = g.frame.attrib.fragNum

structure Station where
  cache : RxCache
  accepted : List DataFrame

def Station.recv (s : Station) (f : DataFrame) : Station :=
  match recvDecache s.cache f.frame with
  | none => s
  | some cache => ⟨cache, s.accepted ++ [f]⟩

def received (fs : List DataFrame) : Station := fs.foldl Station.recv ⟨rtwAllocStainfo, []⟩

def Station.previous (s : Station) (f : DataFrame) : Option DataFrame :=
  (s.accepted.filter (·.class = f.class)).getLast?

def cell (s : RxCache) : Class → ℕ
  | (some tid, true) => s.bmcTidRxseq tid
  | (some tid, false) => s.tidRxseq tid
  | (none, true) => s.nonqosBmcRxseq
  | (none, false) => s.nonqosRxseq

theorem cell_class (s : RxCache) (f : DataFrame) : cell s f.class = prxseq s f.frame := by
  rw [DataFrame.class, prxseq]
  cases f.frame.attrib.qos <;> cases isMcast f.frame.attrib.ra <;> rfl

theorem cell_setPrxseq (s : RxCache) (f : DataFrame) :
    cell (setPrxseq s f.frame) = Function.update (cell s) f.class (seqCtrl f.frame) := by
  funext c
  obtain ⟨tid, mcast⟩ := c
  rw [DataFrame.class, setPrxseq]
  cases f.frame.attrib.qos <;> cases isMcast f.frame.attrib.ra <;> cases tid <;> cases mcast <;>
    simp [cell, Function.update_apply]

theorem seqCtrl_inj (f g : DataFrame) : seqCtrl f.frame = seqCtrl g.frame ↔ f.SameNumber g := by
  rw [DataFrame.SameNumber, seqCtrl, seqCtrl, Fin.ext_iff, Fin.ext_iff]
  omega

def Station.filter (s : Station) : Filter DataFrame Class ℕ := ⟨cell s.cache, s.accepted⟩

theorem recvDecache_none (s : Station) (f : DataFrame) :
    recvDecache s.cache f.frame = none ↔
      s.filter.Refuses DataFrame.class (fun g => seqCtrl g.frame) f := by
  have htid := f.tid_lt
  change _ ↔ cell s.cache f.class = seqCtrl f.frame
  rw [cell_class, recvDecache, if_neg (by omega)]
  split
  · next h => exact iff_of_true rfl h.symm
  · next h => exact iff_of_false (Option.some_ne_none _) fun heq => h heq.symm

theorem filter_recv (s : Station) (f : DataFrame) :
    (s.recv f).filter = s.filter.offer DataFrame.class (fun g => seqCtrl g.frame) f := by
  have hnone := recvDecache_none s f
  rw [Station.recv, Filter.offer]
  cases hdec : recvDecache s.cache f.frame with
  | none => rw [if_pos (hnone.mp hdec)]
  | some cache =>
    have hkeep : ¬ s.filter.Refuses DataFrame.class (fun g => seqCtrl g.frame) f := by
      rw [← hnone, hdec]
      exact Option.some_ne_none cache
    have htid := f.tid_lt
    rw [if_neg hkeep]
    rw [recvDecache, if_neg (by omega)] at hdec
    split at hdec
    · cases hdec
    · cases hdec
      rw [Station.filter, cell_setPrxseq]
      rfl

theorem filter_received (fs : List DataFrame) :
    (received fs).filter = Filter.run DataFrame.class (fun g => seqCtrl g.frame)
      (cell rtwAllocStainfo) fs := by
  induction fs using List.reverseRecOn with
  | nil => rfl
  | append_singleton fs f ih =>
    rw [run_concat, ← ih, ← filter_recv, received, List.foldl_append]
    rfl

/-- The sequence and fragment number that the cache of a class holds before its first frame. -/
def unusedNumber (f : DataFrame) : ℕ × ℕ := if f.frame.attrib.qos then (4095, 15) else (0, 0)

theorem initial_eq (f : DataFrame) :
    cell rtwAllocStainfo f.class = seqCtrl f.frame ↔
      (f.frame.attrib.seqNum.val, f.frame.attrib.fragNum.val) = unusedNumber f := by
  rw [cell_class, unusedNumber, seqCtrl, prxseq]
  have hseq := f.frame.attrib.seqNum.isLt
  have hfrag := f.frame.attrib.fragNum.isLt
  cases f.frame.attrib.qos <;> cases isMcast f.frame.attrib.ra <;>
    simp only [rtwAllocStainfo, wRxSeqInitialValue, Bool.false_eq_true, if_true, if_false,
      Prod.mk.injEq] <;> omega

/-- A frame is dropped exactly when it repeats the number of the frame of its class that was
accepted before, all along a sequence of frames, if and only if no class starts with the number
that its cache starts with. -/
theorem duplicates_dropped (fs : List DataFrame) :
    (∀ pre f post, fs = pre ++ f :: post →
      (recvDecache (received pre).cache f.frame = none ↔
        ∃ g, (received pre).previous f = some g ∧ g.SameNumber f)) ↔
      ∀ pre f post, fs = pre ++ f :: post → (∀ g ∈ pre, g.class ≠ f.class) →
        (f.frame.attrib.seqNum.val, f.frame.attrib.fragNum.val) ≠ unusedNumber f := by
  have hexact := run_lastSeen DataFrame.class (fun g => seqCtrl g.frame) (cell rtwAllocStainfo) fs
  simp only [FirstsDiffer, Ne, initial_eq] at hexact
  rw [← hexact]
  refine forall₃_congr fun pre f post => imp_congr_right fun _ => ?_
  rw [Exact, ← filter_received, ← recvDecache_none]
  simp only [seqCtrl_inj]
  rfl

def firstFrame (qos : Bool) (seqNum : Fin 4096) (fragNum : Fin 16) : DataFrame where
  frame := { attrib := { qos := qos, seqNum := seqNum, fragNum := fragNum } }
  tid_lt := Nat.zero_lt_succ 15

/-- The first frame that is not a QoS frame is dropped when its number is zero, and the first QoS
frame when all bits of its number are set. -/
theorem first_dropped :
    recvDecache (received []).cache (firstFrame false 0 0).frame = none ∧
      recvDecache (received []).cache (firstFrame true 4095 15).frame = none ∧
      ∀ qos seqNum fragNum, (received []).previous (firstFrame qos seqNum fragNum) = none :=
  ⟨by decide, by decide, fun _ _ _ => rfl⟩

end Rtl8189.Decache
