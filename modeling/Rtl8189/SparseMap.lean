import Rtl8189.AccessProg
import Rtl8189.BlockModes

/-!
# Sparse maps

A `map_t` gives the bytes of some segments of its addresses, and one value for all the others.
`map_read8` looks for the segment of an address, `map_readN` copies the part that each segment
has of a range.
-/
namespace Rtl8189.SparseMap

open AccessProg

open BlockModes (Mem)

structure Seg where
  sa : ℕ
  c : List UInt8

namespace Seg

variable (s : Seg)

def len : ℕ := s.c.length

def Has (a : ℕ) : Prop := s.sa ≤ a ∧ a < s.sa + s.len

instance (a : ℕ) : Decidable (s.Has a) := inferInstanceAs (Decidable (_ ∧ _))

end Seg

/-- `map_t`, with segments inside the map that do not overlap. -/
structure MapT where
  len : ℕ
  initValue : UInt8
  segs : List Seg
  fits : len < 65536
  inside : ∀ s ∈ segs, s.sa + s.len ≤ len
  apart : segs.Pairwise fun s t => ∀ a, s.Has a → ¬ t.Has a

/-- The caller's buffer, and what a segment points to, by its number. -/
inductive Region where
  | buf
  | seg (k : ℕ)
  deriving DecidableEq

inductive Status where
  | success
  | fail
  deriving DecidableEq, Repr

def put (mem : Mem) (start n : ℕ) (bytes : Mem) : Mem := fun i =>
  if start ≤ i ∧ i < start + n then bytes (i - start) else mem i

/-- Where a copy goes, where it comes from, and its length, a `u16`. -/
structure Copy where
  dst : ℕ
  src : ℕ
  cLen : ℕ
  deriving DecidableEq, Repr

section Range

variable (offset len : UInt16)

def Misses (s : Seg) : Prop :=
  s.sa + s.len ≤ offset.toNat ∨ offset.toNat + len.toNat ≤ s.sa

instance (s : Seg) : Decidable (Misses offset len s) := inferInstanceAs (Decidable (_ ∨ _))

def clip (s : Seg) : Copy :=
  if offset.toNat ≤ s.sa then
    { dst := s.sa - offset.toNat
      src := 0
      cLen := (if s.sa + s.len ≤ offset.toNat + len.toNat then s.len
        else offset.toNat + len.toNat - s.sa) % 65536 }
  else
    { dst := 0
      src := offset.toNat - s.sa
      cLen := (if offset.toNat + len.toNat ≤ s.sa + s.len then len.toNat
        else s.sa + s.len - offset.toNat) % 65536 }

def copySeg (k : ℕ) (s : Seg) (mem : Mem) : Prog Region Mem :=
  if Misses offset len s then pure mem
  else do
    .touch (.seg k) (clip offset len s).src (clip offset len s).cLen
    .touch .buf (clip offset len s).dst (clip offset len s).cLen
    pure (put mem (clip offset len s).dst (clip offset len s).cLen
      fun i => s.c.getD ((clip offset len s).src + i) 0)

/-- The loop of `map_readN` from segment `k` on. -/
def copySegs : ℕ → List Seg → Mem → Prog Region Mem
  | _, [], mem => pure mem
  | k, s :: segs, mem => do
    let mem ← copySeg offset len k s mem
    copySegs (k + 1) segs mem

/-- `map_readN`. The status is not set again. -/
def mapReadN (m : MapT) (buf : Mem) : Prog Region (Status × Mem) :=
  if len = 0 then pure (.fail, buf)
  else if m.len < offset.toNat + len.toNat then pure (.fail, buf)
  else do
    .touch .buf 0 len.toNat
    let mem ← copySegs offset len 0 m.segs (put buf 0 len.toNat fun _ => m.initValue)
    pure (.fail, mem)

/-- The loop of `map_read8` from segment `k` on. -/
def findSeg (init : UInt8) : ℕ → List Seg → Prog Region UInt8
  | _, [] => pure init
  | k, s :: segs =>
    if s.sa + s.len ≤ offset.toNat ∨ offset.toNat + 1 ≤ s.sa then findSeg init (k + 1) segs
    else do
      .touch (.seg k) (offset.toNat - s.sa) 1
      pure (s.c.getD (offset.toNat - s.sa) 0)

def mapRead8 (m : MapT) : Prog Region UInt8 :=
  if m.len < offset.toNat + 1 then pure m.initValue else findSeg offset m.initValue 0 m.segs

end Range

/-! ## What a map holds -/

def segsAt (segs : List Seg) (a : ℕ) : Option UInt8 :=
  match segs with
  | [] => none
  | s :: segs => if s.Has a then some (s.c.getD (a - s.sa) 0) else segsAt segs a

namespace MapT

variable (m : MapT)

def val (a : ℕ) : UInt8 := (segsAt m.segs a).getD m.initValue

/-- The sizes of what is accessed by a read of `n` bytes. -/
def size (n : ℕ) : Region → ℕ
  | .buf => n
  | .seg k => (m.segs.map Seg.len).getD k 0

end MapT

def InMap (m : MapT) (offset len : UInt16) : Prop :=
  1 ≤ len.toNat ∧ offset.toNat + len.toNat ≤ m.len

instance (m : MapT) (offset len : UInt16) : Decidable (InMap m offset len) :=
  inferInstanceAs (Decidable (_ ∧ _))

/-- Each byte of the range is what `map_read8` returns for it, and the others are left. -/
def ReadsLike (m : MapT) (offset len : UInt16) (buf mem : Mem) : Prop :=
  (∀ i : UInt16, i < len → (mapRead8 (offset + i) m).ret = some (mem i.toNat)) ∧
    ∀ i, len.toNat ≤ i → mem i = buf i

/-- A range in the map is read with success and inside the buffers, any other is refused. -/
def Meets (m : MapT) (offset len : UInt16) (buf : Mem) : Prop :=
  (mapReadN offset len m buf).Inside (m.size len.toNat) ∧
    if InMap m offset len then
      ∃ mem, (mapReadN offset len m buf).ret = some (.success, mem) ∧
        ReadsLike m offset len buf mem
    else (mapReadN offset len m buf).ret = some (.fail, buf)

section Segment

variable {offset len : UInt16} {s : Seg}

theorem clip_spec (hs : s.sa + s.len < 65536) (h : ¬ Misses offset len s) :
    (clip offset len s).src + (clip offset len s).cLen ≤ s.len ∧
      (clip offset len s).dst + (clip offset len s).cLen ≤ len.toNat ∧
      ∀ i, ((clip offset len s).dst ≤ i ∧ i < (clip offset len s).dst + (clip offset len s).cLen ↔
          i < len.toNat ∧ s.Has (offset.toNat + i)) ∧
        ((clip offset len s).dst ≤ i →
          (clip offset len s).src + (i - (clip offset len s).dst) = offset.toNat + i - s.sa) := by
  have hlen := len.toNat_lt
  unfold Misses at h
  unfold clip Seg.Has
  push Not at h
  split_ifs with hstart hend hend <;> dsimp only <;> rw [Nat.mod_eq_of_lt (by omega)] <;>
    exact ⟨by omega, by omega, fun i => ⟨by omega, by omega⟩⟩

def afterSeg (offset len : UInt16) (s : Seg) (mem : Mem) : Mem := fun i =>
  if i < len.toNat ∧ s.Has (offset.toNat + i) then s.c.getD (offset.toNat + i - s.sa) 0 else mem i

theorem afterSeg_of_misses (h : Misses offset len s) (mem : Mem) :
    afterSeg offset len s mem = mem := by
  funext i
  refine if_neg fun hi => ?_
  unfold Misses at h
  unfold Seg.Has at hi
  omega

theorem copySeg_ret (hs : s.sa + s.len < 65536) (k : ℕ) (mem : Mem) :
    (copySeg offset len k s mem).ret = some (afterSeg offset len s mem) := by
  unfold copySeg
  split_ifs with h
  · rw [afterSeg_of_misses h]
    rfl
  · obtain ⟨-, -, hclip⟩ := clip_spec hs h
    refine congrArg some (funext fun i => ?_)
    unfold put afterSeg
    by_cases hi : i < len.toNat ∧ s.Has (offset.toNat + i)
    · have hdst := (hclip i).1.mpr hi
      rw [if_pos hdst, if_pos hi, ← (hclip i).2 hdst.1]
    · rw [if_neg (fun hdst => hi ((hclip i).1.mp hdst)), if_neg hi]

theorem copySeg_inside (hs : s.sa + s.len < 65536) {k : ℕ} {size : Region → ℕ}
    (hseg : size (.seg k) = s.len) (hbuf : size .buf = len.toNat) (mem : Mem) :
    (copySeg offset len k s mem).Inside size := by
  unfold copySeg
  split_ifs with h
  · exact (Prog.inside_pure mem).mpr trivial
  · obtain ⟨hsrc, hdst, -⟩ := clip_spec hs h
    rw [Prog.inside_touch_bind, Prog.inside_touch_bind, hseg, hbuf]
    exact ⟨.inr hsrc, .inr hdst, (Prog.inside_pure _).mpr trivial⟩

end Segment

section Segments

variable {offset len : UInt16} {segs : List Seg}

theorem segsAt_of_forall {a : ℕ} (h : ∀ s ∈ segs, ¬ s.Has a) : segsAt segs a = none := by
  induction segs with
  | nil => rfl
  | cons s segs ih =>
    rw [segsAt, if_neg (h s List.mem_cons_self)]
    exact ih fun t ht => h t (List.mem_cons_of_mem s ht)

theorem copySegs_ret (hsegs : ∀ s ∈ segs, s.sa + s.len < 65536)
    (hapart : segs.Pairwise fun s t => ∀ a, s.Has a → ¬ t.Has a) (k : ℕ) (mem : Mem) :
    (copySegs offset len k segs mem).ret = some fun i =>
      if i < len.toNat then (segsAt segs (offset.toNat + i)).getD (mem i) else mem i := by
  induction segs generalizing k mem with
  | nil => exact congrArg some (funext fun i => (ite_self _).symm)
  | cons s segs ih =>
    obtain ⟨hfirst, hrest⟩ := List.pairwise_cons.mp hapart
    rw [copySegs, Prog.ret_bind, copySeg_ret (hsegs s List.mem_cons_self), Option.bind_some,
      ih (fun t ht => hsegs t (List.mem_cons_of_mem s ht)) hrest]
    refine congrArg some (funext fun i => ?_)
    by_cases hi : i < len.toNat
    · rw [if_pos hi, if_pos hi, segsAt]
      by_cases hs : s.Has (offset.toNat + i)
      · rw [if_pos hs, segsAt_of_forall fun t ht => hfirst t ht _ hs]
        exact if_pos ⟨hi, hs⟩
      · have hsame : afterSeg offset len s mem i = mem i := if_neg fun h => hs h.2
        rw [if_neg hs, hsame]
    · rw [if_neg hi, if_neg hi]
      exact if_neg fun h => hi h.1

theorem copySegs_inside (hsegs : ∀ s ∈ segs, s.sa + s.len < 65536) {size : Region → ℕ} {k : ℕ}
    (hsize : ∀ j (h : j < segs.length), size (.seg (k + j)) = segs[j].len)
    (hbuf : size .buf = len.toNat) (mem : Mem) : (copySegs offset len k segs mem).Inside size := by
  induction segs generalizing k mem with
  | nil => exact (Prog.inside_pure mem).mpr trivial
  | cons s segs ih =>
    have hk : size (.seg k) = s.len := hsize 0 (Nat.zero_lt_succ _)
    rw [copySegs, Prog.inside_bind]
    refine ⟨copySeg_inside (hsegs s List.mem_cons_self) hk hbuf mem, fun mem' _ => ?_⟩
    refine ih (fun t ht => hsegs t (List.mem_cons_of_mem s ht)) (fun j hj => ?_) mem'
    have hnext := hsize (j + 1) (Nat.succ_lt_succ hj)
    rw [Nat.add_right_comm k 1 j, Nat.add_assoc k j 1]
    exact hnext

theorem misses_one_iff {s : Seg} {a : ℕ} : s.sa + s.len ≤ a ∨ a + 1 ≤ s.sa ↔ ¬ s.Has a := by
  unfold Seg.Has
  omega

theorem findSeg_ret (init : UInt8) (k : ℕ) :
    (findSeg offset init k segs).ret = some ((segsAt segs offset.toNat).getD init) := by
  induction segs generalizing k with
  | nil => rfl
  | cons s segs ih =>
    by_cases hs : s.Has offset.toNat
    · rw [findSeg, if_neg (fun h => misses_one_iff.mp h hs), segsAt, if_pos hs]
      rfl
    · rw [findSeg, if_pos (misses_one_iff.mpr hs), segsAt, if_neg hs, ih]

theorem findSeg_inside (init : UInt8) {size : Region → ℕ} {k : ℕ}
    (hsize : ∀ j (h : j < segs.length), size (.seg (k + j)) = segs[j].len) :
    (findSeg offset init k segs).Inside size := by
  induction segs generalizing k with
  | nil => exact (Prog.inside_pure init).mpr trivial
  | cons s segs ih =>
    have hk : size (.seg k) = s.len := hsize 0 (Nat.zero_lt_succ _)
    by_cases hs : s.Has offset.toNat
    · rw [findSeg, if_neg (fun h => misses_one_iff.mp h hs), Prog.inside_touch_bind, hk]
      unfold Seg.Has at hs
      exact ⟨.inr (by omega), (Prog.inside_pure _).mpr trivial⟩
    · rw [findSeg, if_pos (misses_one_iff.mpr hs)]
      refine ih fun j hj => ?_
      have hnext := hsize (j + 1) (Nat.succ_lt_succ hj)
      rw [Nat.add_right_comm k 1 j, Nat.add_assoc k j 1]
      exact hnext

end Segments

section Reads

variable (m : MapT) {offset len : UInt16}

theorem seg_lt {s : Seg} (hs : s ∈ m.segs) : s.sa + s.len < 65536 :=
  (m.inside s hs).trans_lt m.fits

theorem size_seg (n : ℕ) : ∀ j (h : j < m.segs.length), m.size n (.seg (0 + j)) = m.segs[j].len := by
  intro j h
  rw [Nat.zero_add, MapT.size, List.getD_eq_getElem?_getD, List.getElem?_map,
    List.getElem?_eq_getElem h]
  rfl

theorem mapRead8_ret (h : offset.toNat < m.len) :
    (mapRead8 offset m).ret = some (m.val offset.toNat) := by
  rw [mapRead8, if_neg (Nat.not_lt.mpr h), findSeg_ret]
  rfl

theorem mapRead8_inside : (mapRead8 offset m).Inside (m.size 0) := by
  unfold mapRead8
  split_ifs
  · exact (Prog.inside_pure _).mpr trivial
  · exact findSeg_inside _ (size_seg m 0)

def MapT.filled (offset len : UInt16) (buf : Mem) : Mem := fun i =>
  if i < len.toNat then m.val (offset.toNat + i) else buf i

theorem mapReadN_ret (h : InMap m offset len) (buf : Mem) :
    (mapReadN offset len m buf).ret = some (.fail, m.filled offset len buf) := by
  have hlen : len ≠ 0 := fun hz => absurd h.1 (by rw [hz]; decide)
  rw [mapReadN, if_neg hlen, if_neg (Nat.not_lt.mpr h.2), Prog.ret_bind, Prog.ret_touch,
    Option.bind_some, Prog.ret_bind, copySegs_ret (fun s => seg_lt m) m.apart, Option.bind_some]
  refine congrArg (fun mem => some (Status.fail, mem)) (funext fun i => ?_)
  unfold MapT.filled MapT.val put
  by_cases hi : i < len.toNat
  · rw [if_pos hi, if_pos hi, if_pos ⟨i.zero_le, by omega⟩]
  · rw [if_neg hi, if_neg hi, if_neg fun h => hi (by omega)]

theorem mapReadN_inside (h : InMap m offset len) (buf : Mem) :
    (mapReadN offset len m buf).Inside (m.size len.toNat) := by
  have hlen : len ≠ 0 := fun hz => absurd h.1 (by rw [hz]; decide)
  rw [mapReadN, if_neg hlen, if_neg (Nat.not_lt.mpr h.2), Prog.inside_touch_bind, Prog.inside_bind]
  refine ⟨.inr (Nat.zero_add _).le, ?_, fun mem _ => (Prog.inside_pure _).mpr trivial⟩
  exact copySegs_inside (fun s => seg_lt m) (size_seg m _) rfl _

theorem filled_readsLike (h : InMap m offset len) (buf : Mem) :
    ReadsLike m offset len buf (m.filled offset len buf) := by
  constructor
  · intro i hi
    have hlt := UInt16.lt_iff_toNat_lt.mp hi
    have hadd : (offset + i).toNat = offset.toNat + i.toNat := by
      rw [UInt16.toNat_add]
      exact Nat.mod_eq_of_lt (by have := h.2; have := m.fits; omega)
    have hin : (offset + i).toNat < m.len := by
      have := h.2
      omega
    rw [mapRead8_ret m hin, hadd, MapT.filled, if_pos hlt]
  · intro i hi
    exact if_neg (Nat.not_lt.mpr hi)

theorem mapReadN_refused (h : ¬ InMap m offset len) (buf : Mem) :
    mapReadN offset len m buf = pure (.fail, buf) := by
  unfold mapReadN
  split_ifs with hlen hrange
  · rfl
  · rfl
  · have hpos : len.toNat ≠ 0 := fun hz => hlen (UInt16.toNat_inj.mp hz)
    exact absurd ⟨by omega, by omega⟩ h

end Reads

/-- A range in the map is copied as `map_read8` reads it, inside the buffer and the segments, but
is reported as a failure, so that a call does what is asked of it just when it is refused. -/
theorem range_read_iff (m : MapT) (offset len : UInt16) (buf : Mem) :
    (Meets m offset len buf ↔ ¬ InMap m offset len) ∧
      (InMap m offset len → (mapReadN offset len m buf).Inside (m.size len.toNat) ∧
        ∃ mem, (mapReadN offset len m buf).ret = some (.fail, mem) ∧
          ReadsLike m offset len buf mem) := by
  refine ⟨⟨fun ⟨_, hmeets⟩ hin => ?_, fun hout => ?_⟩, fun hin => ?_⟩
  · rw [if_pos hin] at hmeets
    obtain ⟨mem, hret, -⟩ := hmeets
    rw [mapReadN_ret m hin] at hret
    exact nomatch hret
  · rw [Meets, if_neg hout, mapReadN_refused m hout]
    exact ⟨(Prog.inside_pure _).mpr trivial, rfl⟩
  · exact ⟨mapReadN_inside m hin buf, _, mapReadN_ret m hin buf, filled_readsLike m hin buf⟩

def twoSegments : MapT where
  len := 8
  initValue := 0xff
  segs := [⟨4, [5, 6]⟩, ⟨1, [1, 2]⟩]
  fits := by decide
  inside := by decide
  apart := by
    simp only [List.pairwise_cons, List.mem_singleton, forall_eq, Seg.Has, Seg.len]
    exact ⟨fun a h => by simp only [List.length_cons, List.length_nil] at *; omega, by simp⟩

theorem range_read_two : ∃ mem, (mapReadN 2 4 twoSegments fun _ => 0).ret = some (.fail, mem) ∧
    ReadsLike twoSegments 2 4 (fun _ => 0) mem :=
  ((range_read_iff twoSegments 2 4 fun _ => 0).2 (by decide)).2

/-- The bytes are right, the status is not. -/
theorem range_refused :
    ((mapReadN 2 4 twoSegments fun _ => 0).ret.map fun r => (r.1, (List.range 4).map r.2)) =
        some (.fail, [2, 0xff, 5, 6]) ∧
      InMap twoSegments 2 4 ∧ ¬ Meets twoSegments 2 4 fun _ => 0 := by
  refine ⟨by decide +kernel, by decide, fun h => ?_⟩
  obtain ⟨-, h⟩ := h
  rw [if_pos (by decide)] at h
  obtain ⟨mem, hret, -⟩ := h
  exact nomatch congrArg (Option.map Prod.fst) hret

end Rtl8189.SparseMap
