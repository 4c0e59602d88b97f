import Rtl8189.ElemList

/-!
# Editing the elements of the beacon

`update_BCNTIM`, `rtw_add_bcn_ie` and `rtw_remove_bcn_ie` save the elements behind a place, write
there, and put the saved ones behind what was written.
-/
namespace Rtl8189.BeaconEdit

open ElemList IeLookup

structure Network where
  ies : List UInt8
  ielength : ℕ

def fixedIeLength : ℕ := 12

/-- `new` is written at `dst`, which then moves on by `step`; the `remainderIelen` bytes from
`remainder` on are put there, where memory to save them was found. -/
def rewrite (rtwMalloc : ℕ → Bool) (net : Network) (dst : ℕ) (new : List UInt8) (step remainder remainderIelen : ℕ) :
    Network :=
  let ies := putBytes net.ies dst new
  { ies :=
      if 0 < remainderIelen ∧ rtwMalloc remainderIelen then
        putBytes ies (dst + step) ((net.ies.drop remainder).take remainderIelen)
      else ies
    ielength := u32 (dst + step + remainderIelen) }

/-- `rtw_malloc`: there is memory for the elements of a beacon, none for 2 GiB. -/
structure Mallocs (rtwMalloc : ℕ → Bool) : Prop where
  gives : ∀ n < 2 ^ 22, rtwMalloc n = true
  refuses : ∀ n ≥ 2 ^ 31, rtwMalloc n = false

structure Beacon where
  fixed : List UInt8
  elems : List Elem
  behind : List UInt8
  fixed_length : fixed.length = fixedIeLength
  room : 260 ≤ behind.length
  fits : (encode elems).length < 2 ^ 20

def Beacon.network (b : Beacon) : Network where
  ies := b.fixed ++ (encode b.elems ++ b.behind)
  ielength := b.fixed.length + (encode b.elems).length

def Shows (net : Network) (fixed bytes : List UInt8) : Prop :=
  (∃ behind, net.ies = fixed ++ (bytes ++ behind)) ∧ net.ielength = fixed.length + bytes.length

theorem Shows.unique {net : Network} {fixed x y : List UInt8} (hx : Shows net fixed x)
    (hy : Shows net fixed y) : x = y := by
  obtain ⟨⟨behind, hmem⟩, hlen⟩ := hx
  obtain ⟨⟨behind', hmem'⟩, hlen'⟩ := hy
  rw [hmem] at hmem'
  refine (List.append_inj (List.append_cancel_left hmem') ?_).1
  omega

/-! ## Rewriting -/

section Rewrite

variable {rtwMalloc : ℕ → Bool}

theorem rewrite_ies (net : Network) (dst : ℕ) (new : List UInt8) (step remainder len : ℕ) :
    (rewrite rtwMalloc net dst new step remainder len).ies =
      if 0 < len ∧ rtwMalloc len then
        putBytes (putBytes net.ies dst new) (dst + step) ((net.ies.drop remainder).take len)
      else putBytes net.ies dst new := rfl

theorem rewrite_ielength (net : Network) (dst : ℕ) (new : List UInt8) (step remainder len : ℕ) :
    (rewrite rtwMalloc net dst new step remainder len).ielength = u32 (dst + step + len) := rfl

/-- The bytes between `pre` and `kept` are replaced by as much of `new` as the step passes. -/
theorem rewrite_shows (h : Mallocs rtwMalloc) {net : Network}
    {fixed pre old kept behind new : List UInt8} {step : ℕ} (hstep : step ≤ new.length)
    (hies : net.ies = fixed ++ (pre ++ (old ++ (kept ++ behind))))
    (hlen : net.ielength = fixed.length + pre.length + old.length + kept.length)
    (hfits : fixed.length + pre.length + step + kept.length < 2 ^ 22) :
    Shows (rewrite rtwMalloc net (fixed.length + pre.length) new step
      (fixed.length + pre.length + old.length)
      (usub net.ielength (fixed.length + pre.length + old.length))) fixed
      (pre ++ (new.take step ++ kept)) := by
  have hremain : usub net.ielength (fixed.length + pre.length + old.length) = kept.length := by
    rw [usub, u32]
    omega
  have htake : (new.take step).length = step := List.length_take_of_le hstep
  rw [hremain, Shows, rewrite_ies, rewrite_ielength]
  rw [← List.append_assoc] at hies
  constructor
  · rw [← List.length_append]
    have hsave : (net.ies.drop ((fixed ++ pre).length + old.length)).take kept.length = kept := by
      rw [hies, ← List.drop_drop, List.drop_left, List.drop_left, List.take_left]
    rw [hsave, hies, putBytes_right]
    generalize (old ++ (kept ++ behind)).drop new.length = tail
    have hsplit : (fixed ++ pre) ++ (new ++ tail) =
        ((fixed ++ pre) ++ new.take step) ++ (new.drop step ++ tail) := by
      rw [List.append_assoc (fixed ++ pre), ← List.append_assoc (new.take step),
        List.take_append_drop]
    split_ifs with hcopy
    · have hat : ((fixed ++ pre) ++ new.take step).length = (fixed ++ pre).length + step := by
        rw [List.length_append, htake]
      refine ⟨(new.drop step ++ tail).drop kept.length, ?_⟩
      rw [hsplit, ← hat, putBytes_right]
      simp only [List.append_assoc]
    · have hnil : kept = [] := by
        by_contra hne
        exact hcopy ⟨List.length_pos_iff.mpr hne, h.gives _ (by omega)⟩
      refine ⟨new.drop step ++ tail, ?_⟩
      rw [hsplit, hnil]
      simp only [List.append_assoc, List.append_nil]
  · rw [u32, List.length_append, List.length_append, htake, Nat.mod_eq_of_lt (by omega)]
    omega

/-- The place is beyond the elements: no memory is found for what would be behind it. -/
theorem rewrite_beyond (h : Mallocs rtwMalloc) {net : Network}
    {fixed kept gap behind new : List UInt8} {step : ℕ}
    (hies : net.ies = fixed ++ (kept ++ (gap ++ behind))) (hstep : step ≤ new.length)
    (hlen : net.ielength = fixed.length + kept.length) (hgap : gap ≠ [])
    (hfits : net.ielength + gap.length + step < 2 ^ 22) :
    Shows (rewrite rtwMalloc net (net.ielength + gap.length) new step (net.ielength + gap.length)
      (usub net.ielength (net.ielength + gap.length))) fixed (kept ++ (gap ++ new).take step) := by
  have hpos := List.length_pos_iff.mpr hgap
  have hremain : usub net.ielength (net.ielength + gap.length) = 2 ^ 32 - gap.length := by
    rw [usub, u32]
    omega
  have hnone : rtwMalloc (2 ^ 32 - gap.length) = false := h.refuses _ (by omega)
  rw [hremain, Shows, rewrite_ies, rewrite_ielength, hnone,
    if_neg fun hc => Bool.false_ne_true hc.2]
  constructor
  · have hmem : net.ies = (fixed ++ (kept ++ gap)) ++ behind := by
      rw [hies]
      simp only [List.append_assoc]
    have hat : net.ielength + gap.length = (fixed ++ (kept ++ gap)).length := by
      rw [hlen, List.length_append, List.length_append, Nat.add_assoc]
    rw [hmem, hat, putBytes_right]
    refine ⟨(gap ++ new).drop step ++ behind.drop new.length, ?_⟩
    calc (fixed ++ (kept ++ gap)) ++ (new ++ behind.drop new.length)
        = fixed ++ (kept ++ ((gap ++ new) ++ behind.drop new.length)) := by
          simp only [List.append_assoc]
      _ = fixed ++ (kept ++ (((gap ++ new).take step ++ (gap ++ new).drop step) ++
            behind.drop new.length)) := by rw [List.take_append_drop]
      _ = _ := by simp only [List.append_assoc]
  · have htake : ((gap ++ new).take step).length = step := by
      refine List.length_take_of_le ?_
      rw [List.length_append]
      omega
    rw [List.length_append, htake, u32]
    omega

end Rewrite

/-! ## Elements in the middle -/

section Elems

variable {net : Network} {fixed : List UInt8} {l : List Elem}

theorem lookup (hfixed : fixed.length = fixedIeLength) (hl : Shows net fixed (encode l))
    (id : UInt8) :
    rtwGetIe net.ies fixedIeLength id (net.ielength - fixedIeLength) =
      locate (fun e => e.id = id) l fixedIeLength := by
  obtain ⟨⟨behind, hmem⟩, hlen⟩ := hl
  have hlist := rtwGetIe_list fixed behind id l
  rw [hmem, hlen, hfixed, Nat.add_sub_cancel_left]
  rw [hfixed] at hlist
  exact hlist

theorem rewrite_elems {rtwMalloc : ℕ → Bool} (h : Mallocs rtwMalloc)
    (hfixed : fixed.length = fixedIeLength) {A old B : List Elem} {new : List UInt8} {step : ℕ}
    (hl : Shows net fixed (encode (A ++ (old ++ B)))) (hstep : step ≤ new.length)
    (hnew : new.length ≤ 2 ^ 9) (hfits : (encode (A ++ (old ++ B))).length < 2 ^ 21) :
    Shows (rewrite rtwMalloc net (fixedIeLength + (encode A).length) new step
      (fixedIeLength + (encode A).length + (encode old).length)
      (usub net.ielength (fixedIeLength + (encode A).length + (encode old).length)))
      fixed (encode A ++ (new.take step ++ encode B)) := by
  obtain ⟨⟨behind, hmem⟩, hlen⟩ := hl
  rw [encode_append, encode_append] at hmem hlen hfits
  rw [List.length_append, List.length_append] at hlen hfits
  have hsize : fixed.length < 2 ^ 9 := by
    rw [hfixed]
    decide
  rw [← hfixed]
  have hies : net.ies = fixed ++ (encode A ++ (encode old ++ (encode B ++ behind))) := by
    rw [hmem]
    simp only [List.append_assoc]
  exact rewrite_shows h hstep hies (by omega) (by omega)

end Elems

theorem Beacon.shows (b : Beacon) : Shows b.network b.fixed (encode b.elems) :=
  ⟨⟨b.behind, rfl⟩, rfl⟩

theorem Elem.bytes_length_le (e : Elem) : e.bytes.length ≤ 2 ^ 9 := by
  have hfits := e.fits
  rw [Elem.bytes_length]
  omega

def smallOnly (n : ℕ) : Bool := n < 2 ^ 22

theorem smallOnly_mallocs : Mallocs smallOnly where
  gives _ hn := decide_eq_true hn
  refuses n hn := decide_eq_false (by omega)

def oneBeacon (elems : List Elem) (hfits : (encode elems).length < 2 ^ 20) : Beacon where
  fixed := List.replicate 12 0
  elems := elems
  behind := List.replicate 260 0
  fixed_length := rfl
  room := Nat.le_of_eq List.length_replicate.symm
  fits := hfits

def ssidElem : Elem := ⟨0, [97], by decide⟩

def ratesElem : Elem := ⟨1, [0x82], by decide⟩

def dsElem : Elem := ⟨3, [6], by decide⟩

def extRatesElem : Elem := ⟨50, [0x0c, 0x12], by decide⟩

end Rtl8189.BeaconEdit
