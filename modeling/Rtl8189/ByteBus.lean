import Rtl8189.BlockModes

/-!
# A memory behind a bus

A host reaches a byte memory by commands, each of which is carried out or fails part way.
Commands move one byte, or many from an aligned address. What a transfer leaves in the
memory is always a part of the bytes sent to it.
-/
namespace Rtl8189.ByteBus
open BlockModes

def store (m : Mem) (a : ℕ) (l : List UInt8) : Mem := fun x =>
  if a ≤ x ∧ x < a + l.length then l.getD (x - a) 0 else m x

variable {m : Mem} {a x : ℕ} {l : List UInt8}

theorem store_in (ha : a ≤ x) (hx : x < a + l.length) : store m a l x = l.getD (x - a) 0 :=
  if_pos ⟨ha, hx⟩

theorem store_out (h : ¬ (a ≤ x ∧ x < a + l.length)) : store m a l x = m x := if_neg h

theorem store_cons (m : Mem) (a : ℕ) (v : UInt8) (l : List UInt8) :
    store (store m a [v]) (a + 1) l = store m a (v :: l) := by
  funext x
  by_cases hv : x = a
  · subst hv
    rw [store_out (by omega), store_in (Nat.le_refl x) (by simp),
      store_in (Nat.le_refl x) (by simp)]
    simp
  · by_cases hl : a ≤ x ∧ x < a + (v :: l).length
    · have hx := hl.2
      rw [List.length_cons] at hx
      rw [store_in (by omega) (by omega), store_in hl.1 hl.2,
        show x - a = x - (a + 1) + 1 by omega, List.getD_cons_succ]
    · have hx := hl
      rw [List.length_cons] at hx
      rw [store_out (by omega), store_out (by simp; omega), store_out hl]

theorem store_take_take (m : Mem) (a : ℕ) (l : List UInt8) (j k : ℕ) :
    store (store m a (l.take j)) a (l.take k) = store m a (l.take (max j k)) := by
  funext x
  have hlen : ∀ n, (l.take n).length = min n l.length := fun n => List.length_take
  have hget : ∀ n, x < a + min n l.length → a ≤ x →
      (l.take n).getD (x - a) 0 = l.getD (x - a) 0 := by
    intro n hn ha
    simp only [List.getD_eq_getElem?_getD]
    rw [List.getElem?_take_of_lt (by omega)]
  by_cases hk : a ≤ x ∧ x < a + min k l.length
  · rw [store_in hk.1 (by rw [hlen]; exact hk.2), store_in hk.1 (by rw [hlen]; omega),
      hget k hk.2 hk.1, hget _ (by omega) hk.1]
  · rw [store_out (by rw [hlen]; exact hk)]
    by_cases hj : a ≤ x ∧ x < a + min j l.length
    · rw [store_in hj.1 (by rw [hlen]; exact hj.2), store_in hj.1 (by rw [hlen]; omega),
        hget j hj.2 hj.1, hget _ (by omega) hj.1]
    · rw [store_out (by rw [hlen]; exact hj), store_out (by rw [hlen]; omega)]

theorem store_same (m : Mem) (a s : ℕ) (l : List UInt8) (k : ℕ) :
    store m a ((bytesAt m a s ++ l).take k) = store m (a + s) (l.take (k - s)) := by
  funext x
  have hlen := length_bytesAt m a s
  by_cases hs : a ≤ x ∧ x < a + s
  · rw [store_out (m := m) (a := a + s) (by omega)]
    by_cases hx : x < a + ((bytesAt m a s ++ l).take k).length
    · have hk := hx
      rw [List.length_take] at hk
      rw [store_in hs.1 hx, List.getD_eq_getElem?_getD, List.getElem?_take_of_lt (by omega),
        List.getElem?_append_left (by omega), ← List.getD_eq_getElem?_getD,
        bytesAt_getD m a (by omega), show a + (x - a) = x by omega]
    · rw [store_out (by omega)]
  · by_cases hx : a + s ≤ x ∧ x < a + s + (l.take (k - s)).length
    · have hk := hx.2
      rw [List.length_take] at hk
      rw [store_in hx.1 hx.2, store_in (by omega) (by simp [hlen]; omega),
        List.getD_eq_getElem?_getD, List.getElem?_take_of_lt (by omega),
        List.getElem?_append_right (by omega), List.getD_eq_getElem?_getD,
        List.getElem?_take_of_lt (by omega), hlen, show x - a - s = x - (a + s) by omega]
    · have hk := hx
      rw [List.length_take] at hk
      rw [store_out hx, store_out (by simp [hlen]; omega)]

theorem bytesAt_succ (m : Mem) (a n : ℕ) : bytesAt m a (n + 1) = m a :: bytesAt m (a + 1) n := by
  simp only [bytesAt, List.range_succ_eq_map, List.map_cons, List.map_map, Nat.add_zero]
  congr 1
  apply List.map_congr_left
  intro i _
  simp only [Function.comp_apply]
  congr 1
  omega

/-! ## Commands -/

/-- Command number `n` fails after `fault n` bytes, if that is given. -/
structure Bus where
  mem : Mem
  fault : ℕ → Option ℕ
  done : ℕ
  failed : Bool

namespace Bus

def Sound (b : Bus) : Prop := ∀ n, b.fault n = none

/-- How many of the `n` bytes of a command are moved, and the bus after it. -/
def command (b : Bus) (n : ℕ) : ℕ × Bus :=
  match b.fault b.done with
  | none => (n, { b with done := b.done + 1, failed := false })
  | some k => (min k n, { b with done := b.done + 1, failed := true })

/-- A command for many bytes is refused where its address is not a multiple of four. -/
def extended (b : Bus) (a n : ℕ) : ℕ × Bus :=
  if a % 4 = 0 then b.command n else (0, { b with done := b.done + 1, failed := true })

def readb (b : Bus) (a : ℕ) : UInt8 × Bus :=
  let c := b.command 1
  (if c.2.failed then 0xff else b.mem a, c.2)

def writeb (b : Bus) (v : UInt8) (a : ℕ) : Bus :=
  let c := b.command 1
  { c.2 with mem := store b.mem a ([v].take c.1) }

def memcpyFromio (b : Bus) (a n : ℕ) (dst : List UInt8) : List UInt8 × Bus :=
  let c := b.extended a n
  (bytesAt b.mem a c.1 ++ dst.drop c.1, c.2)

def memcpyToio (b : Bus) (a : ℕ) (l : List UInt8) : Bus :=
  let c := b.extended a l.length
  { c.2 with mem := store b.mem a (l.take c.1) }

end Bus

open Bus

def readEach (b : Bus) (a : ℕ) : List UInt8 → Bool × List UInt8 × Bus
  | [] => (false, [], b)
  | _ :: dst =>
    let r := b.readb a
    if r.2.failed then (true, r.1 :: dst, r.2) else
      let s := readEach r.2 (a + 1) dst
      (s.1, r.1 :: s.2.1, s.2.2)

def writeEach (b : Bus) (a : ℕ) : List UInt8 → Bool × Bus
  | [] => (false, b)
  | v :: l =>
    let b := b.writeb v a
    if b.failed then (true, b) else writeEach b (a + 1) l

variable {b b' : Bus} {n k : ℕ} {dst dst' : List UInt8} {err : Bool}

structure Fetched (b : Bus) (a n : ℕ) (err : Bool) (dst : List UInt8) (b' : Bus) : Prop where
  fault : b'.fault = b.fault
  mem : b'.mem = b.mem
  last : b'.failed = err
  bytes : err = false → dst = bytesAt b.mem a n
  sound : b.Sound → err = false

structure Stored (b : Bus) (a : ℕ) (l : List UInt8) (err : Bool) (b' : Bus) : Prop where
  fault : b'.fault = b.fault
  part : ∃ k, b'.mem = store b.mem a (l.take k)
  last : b'.failed = err
  all : err = false → b'.mem = store b.mem a l
  sound : b.Sound → err = false

theorem Sound.congr (h : b.Sound) (hf : b'.fault = b.fault) : b'.Sound := fun n => by
  rw [hf]; exact h n

theorem command_spec (b : Bus) (n : ℕ) :
    (b.command n).2.fault = b.fault ∧ (b.command n).2.mem = b.mem ∧
      (b.Sound → (b.command n).2.failed = false) ∧
      ((b.command n).2.failed = false → (b.command n).1 = n) := by
  unfold command
  cases hf : b.fault b.done with
  | none => exact ⟨rfl, rfl, fun _ => rfl, fun _ => rfl⟩
  | some k =>
    refine ⟨rfl, rfl, fun h => ?_, fun h => nomatch h⟩
    rw [h b.done] at hf
    cases hf

theorem extended_eq (b : Bus) (n : ℕ) (ha : a % 4 = 0) : b.extended a n = b.command n := if_pos ha

theorem memcpyFromio_bytes (b : Bus) (dst : List UInt8) (ha : a % 4 = 0)
    (hok : (b.memcpyFromio a n dst).2.failed = false) :
    (b.memcpyFromio a n dst).1 = bytesAt b.mem a n ++ dst.drop n := by
  obtain ⟨-, -, -, hall⟩ := command_spec b n
  simp only [memcpyFromio, extended_eq b n ha] at hok ⊢
  rw [hall hok]

/-- Only the first `n` bytes of the buffer are meant. -/
theorem memcpyFromio_fetched (b : Bus) (dst : List UInt8) (ha : a % 4 = 0) :
    Fetched b a n (b.memcpyFromio a n dst).2.failed ((b.memcpyFromio a n dst).1.take n)
      (b.memcpyFromio a n dst).2 := by
  obtain ⟨hfault, hmem, hsound, -⟩ := command_spec b n
  have hbus : (b.memcpyFromio a n dst).2 = (b.command n).2 := by
    simp only [memcpyFromio, extended_eq b n ha]
  rw [← hbus] at hfault hmem hsound
  refine ⟨hfault, hmem, rfl, fun h => ?_, hsound⟩
  rw [memcpyFromio_bytes b dst ha h, List.take_left' (length_bytesAt b.mem a n)]

theorem memcpyToio_stored (b : Bus) (l : List UInt8) (ha : a % 4 = 0) :
    Stored b a l (b.memcpyToio a l).failed (b.memcpyToio a l) := by
  obtain ⟨hfault, hmem, hsound, hall⟩ := command_spec b l.length
  simp only [memcpyToio, extended_eq b l.length ha]
  refine ⟨hfault, ⟨_, rfl⟩, rfl, fun h => ?_, hsound⟩
  rw [hall h, List.take_length]

theorem readb_fetched (b : Bus) (a : ℕ) :
    Fetched b a 1 (b.readb a).2.failed [(b.readb a).1] (b.readb a).2 := by
  obtain ⟨hfault, hmem, hsound, -⟩ := command_spec b 1
  refine ⟨hfault, hmem, rfl, fun h => ?_, hsound⟩
  simp only [readb] at h ⊢
  simp [h, bytesAt]

theorem writeb_stored (b : Bus) (v : UInt8) (a : ℕ) :
    Stored b a [v] (b.writeb v a).failed (b.writeb v a) := by
  obtain ⟨hfault, hmem, hsound, hall⟩ := command_spec b 1
  refine ⟨hfault, ⟨_, rfl⟩, rfl, fun h => ?_, hsound⟩
  simp only [writeb] at h ⊢
  rw [hall h]
  rfl

theorem Fetched.cons {v : UInt8} {b₁ : Bus} (hv : Fetched b a 1 false [v] b₁)
    (h : Fetched b₁ (a + 1) n err dst b') : Fetched b a (n + 1) err (v :: dst) b' := by
  refine ⟨h.fault.trans hv.fault, h.mem.trans hv.mem, h.last, fun he => ?_,
    fun hs => h.sound (Sound.congr hs hv.fault)⟩
  have hvb := hv.bytes rfl
  rw [bytesAt_succ] at hvb
  rw [bytesAt_succ, h.bytes he, hv.mem, (List.cons.inj hvb).1]

theorem readEach_fetched (b : Bus) (a : ℕ) (v : UInt8) (dst : List UInt8) :
    Fetched b a (dst.length + 1) (readEach b a (v :: dst)).1 (readEach b a (v :: dst)).2.1
      (readEach b a (v :: dst)).2.2 := by
  induction dst generalizing b a v with
  | nil =>
    have h := readb_fetched b a
    cases hf : (b.readb a).2.failed <;> simpa [readEach, hf] using h
  | cons w dst ih =>
    have h := readb_fetched b a
    rw [readEach]
    cases hf : (b.readb a).2.failed with
    | true =>
      rw [hf] at h
      refine ⟨h.fault, h.mem, h.last, fun he => ?_, fun hs => ?_⟩
      · cases he
      · cases h.sound hs
    | false =>
      rw [hf] at h
      exact h.cons (ih (b.readb a).2 (a + 1) w)

theorem Stored.cons {v : UInt8} {b₁ : Bus} (hv : Stored b a [v] false b₁)
    (h : Stored b₁ (a + 1) l err b') : Stored b a (v :: l) err b' := by
  have hm := hv.all rfl
  obtain ⟨k, hk⟩ := h.part
  refine ⟨h.fault.trans hv.fault, ⟨k + 1, ?_⟩, h.last, fun he => ?_,
    fun hs => h.sound (Sound.congr hs hv.fault)⟩
  · rw [hk, hm, store_cons, List.take_succ_cons]
  · rw [h.all he, hm, store_cons]

theorem writeEach_stored (b : Bus) (a : ℕ) (v : UInt8) (l : List UInt8) :
    Stored b a (v :: l) (writeEach b a (v :: l)).1 (writeEach b a (v :: l)).2 := by
  induction l generalizing b a v with
  | nil =>
    have h := writeb_stored b v a
    cases hf : (b.writeb v a).failed <;> simpa [writeEach, hf] using h
  | cons w l ih =>
    have h := writeb_stored b v a
    rw [writeEach]
    cases hf : (b.writeb v a).failed with
    | true =>
      rw [hf] at h
      obtain ⟨k, hk⟩ := h.part
      refine ⟨h.fault, ⟨min k 1, ?_⟩, h.last, fun he => ?_, fun hs => ?_⟩
      · rw [if_pos rfl, hk]
        cases k <;> simp
      · cases he
      · cases h.sound hs
    | false =>
      rw [hf] at h
      exact h.cons (ih (b.writeb v a) (a + 1) w)

theorem Stored.again {b₁ : Bus} {e : Bool} (h : Stored b a l e b₁)
    (h' : Stored b₁ a l err b') :
    Stored b a l err b' := by
  obtain ⟨j, hj⟩ := h.part
  obtain ⟨k, hk⟩ := h'.part
  refine ⟨h'.fault.trans h.fault, ⟨max j k, ?_⟩, h'.last, fun he => ?_,
    fun hs => h'.sound (Sound.congr hs h.fault)⟩
  · rw [hk, hj, store_take_take]
  · have hmax : l.take (max j l.length) = l := List.take_of_length_le (by omega)
    have htake := store_take_take b.mem a l j l.length
    rw [hmax, List.take_length] at htake
    rw [h'.all he, hj, htake]

theorem Stored.outside (h : Stored b a l err b') (hx : ¬ (a ≤ x ∧ x < a + l.length)) :
    b'.mem x = b.mem x := by
  obtain ⟨k, hk⟩ := h.part
  rw [hk]
  exact store_out (by simp; omega)

end Rtl8189.ByteBus
