import Rtl8189.IeLookup

/-!
# Lists of elements edited in place

Every byte string is a list of elements and a rest in which no further element fits. The
functions that edit a list look elements up by their place in memory and move what stands
behind them.
-/
namespace Rtl8189.ElemList

open IeLookup

/-- A difference of `uint`s. -/
def usub (a b : ℕ) : ℕ := u32 (a + 2 ^ 32 - b)

def moveBytes (mem : List UInt8) (dst src n : ℕ) : List UInt8 :=
  putBytes mem dst ((mem.drop src).take n)

/-! ## Byte strings as lists -/

def Cut (r : List UInt8) : Prop := r.length < byteAt r 1 + 2

instance (r : List UInt8) : Decidable (Cut r) := inferInstanceAs (Decidable (_ < _))

theorem cut_nil : Cut [] := Nat.zero_lt_two

theorem encode_nil : encode [] = [] := rfl

theorem encode_append (l m : List Elem) : encode (l ++ m) = encode l ++ encode m :=
  List.flatMap_append

theorem encode_insert (A B : List Elem) (e : Elem) :
    encode (A ++ e :: B) = encode A ++ (e.bytes ++ encode B) := by
  rw [encode_append, encode_cons]

theorem Elem.bytes_byteAt_len (e : Elem) (tail : List UInt8) :
    byteAt (e.bytes ++ tail) 1 = e.data.length := (at_append [] e tail).len

theorem not_cut_bytes (e : Elem) (tail : List UInt8) : ¬ Cut (e.bytes ++ tail) := by
  rw [Cut, Elem.bytes_byteAt_len, List.length_append, e.bytes_length]
  omega

theorem exists_elem {b : List UInt8} (h : ¬ Cut b) : ∃ (e : Elem) (tail : List UInt8),
    b = e.bytes ++ tail := by
  match b with
  | [] => exact absurd cut_nil h
  | [x] => exact absurd (Nat.lt_succ_self 1 : Cut [x]) h
  | id :: len :: data =>
    have hlen : byteAt (id :: len :: data) 1 = len.toNat := rfl
    rw [Cut, hlen] at h
    have hfits : len.toNat ≤ data.length := by
      rw [List.length_cons, List.length_cons] at h
      omega
    have htake : (data.take len.toNat).length = len.toNat := List.length_take_of_le hfits
    have hlt : (data.take len.toNat).length < 256 := by
      rw [htake]
      exact len.toNat_lt
    refine ⟨⟨id, data.take len.toNat, hlt⟩, data.drop len.toNat, ?_⟩
    change _ = id :: UInt8.ofNat (data.take len.toNat).length ::
      (data.take len.toNat ++ data.drop len.toNat)
    rw [htake, List.take_append_drop, UInt8.ofNat_toNat]

theorem exists_elements (b : List UInt8) : ∃ (l : List Elem) (r : List UInt8),
    b = encode l ++ r ∧ Cut r := by
  induction hn : b.length using Nat.strong_induction_on generalizing b with
  | _ n ih =>
    by_cases hcut : Cut b
    · exact ⟨[], b, rfl, hcut⟩
    · obtain ⟨e, tail, rfl⟩ := exists_elem hcut
      rw [List.length_append, e.bytes_length] at hn
      obtain ⟨l, r, rfl, hr⟩ := ih tail.length (by omega) tail rfl
      refine ⟨e :: l, r, ?_, hr⟩
      rw [encode_cons, List.append_assoc]

theorem Elem.bytes_inj {e f : Elem} {s t : List UInt8} (h : e.bytes ++ s = f.bytes ++ t) :
    e = f ∧ s = t := by
  have hlen : e.data.length = f.data.length := by
    rw [← Elem.bytes_byteAt_len e s, h, Elem.bytes_byteAt_len]
  obtain ⟨hbytes, hst⟩ := List.append_inj h (by rw [e.bytes_length, f.bytes_length, hlen])
  refine ⟨?_, hst⟩
  obtain ⟨id, data, fits⟩ := e
  obtain ⟨id', data', fits'⟩ := f
  obtain ⟨rfl, hrest⟩ := List.cons.inj hbytes
  obtain ⟨-, rfl⟩ := List.cons.inj hrest
  rfl

theorem encode_inj {l m : List Elem} {r s : List UInt8} (h : encode l ++ r = encode m ++ s)
    (hr : Cut r) (hs : Cut s) : l = m ∧ r = s := by
  induction l generalizing m with
  | nil =>
    cases m with
    | nil => exact ⟨rfl, h⟩
    | cons f m =>
      rw [encode_nil, List.nil_append, encode_cons, List.append_assoc] at h
      exact absurd (h ▸ hr) (not_cut_bytes f _)
  | cons e l ih =>
    rw [encode_cons, List.append_assoc] at h
    cases m with
    | nil =>
      rw [encode_nil, List.nil_append] at h
      exact absurd (h ▸ hs) (not_cut_bytes e _)
    | cons f m =>
      rw [encode_cons, List.append_assoc] at h
      obtain ⟨rfl, hrest⟩ := Elem.bytes_inj h
      obtain ⟨rfl, rfl⟩ := ih hrest
      exact ⟨rfl, rfl⟩

theorem encode_injective {l m : List Elem} (h : encode l = encode m) : l = m := by
  refine (encode_inj (r := []) (s := []) ?_ cut_nil cut_nil).1
  rw [h]

theorem length_le_encode (l : List Elem) : 2 * l.length ≤ (encode l).length := by
  induction l with
  | nil => exact Nat.le_refl _
  | cons e l ih =>
    rw [encode_length_cons, List.length_cons]
    omega

theorem holds_skip {A C : List Elem} {mem rest : List UInt8} {i : ℕ}
    (h : Holds mem i (A ++ C) rest) : Holds mem (i + (encode A).length) C rest := by
  obtain ⟨pre, rfl, rfl⟩ := h
  refine ⟨pre ++ encode A, ?_, List.length_append⟩
  rw [encode_append, List.append_assoc, List.append_assoc]

/-! ## Looking up -/

/-- The rounds of `rtw_get_ie`; `i` counts up to the limit. -/
def getIeFrom (mem : List UInt8) (pbuf : ℕ) (index : UInt8) (limit : ℕ) :
    ℕ → ℕ → Option (ℕ × ℕ)
  | 0, _ => none
  | n + 1, i =>
    if byteAt mem (pbuf + i) = index.toNat then some (pbuf + i, byteAt mem (pbuf + i + 1))
    else
      let next := i + (byteAt mem (pbuf + i + 1) + 2)
      if limit ≤ next then none else getIeFrom mem pbuf index limit n next

def rtwGetIe (mem : List UInt8) (pbuf : ℕ) (index : UInt8) (limit : ℕ) : Option (ℕ × ℕ) :=
  if limit < 1 then none else getIeFrom mem pbuf index limit limit 0

theorem getIeFrom_list {mem rest : List UInt8} {pbuf limit n i : ℕ} (index : UInt8)
    {l : List Elem} (hne : l ≠ []) (h : Holds mem (pbuf + i) l rest)
    (hlimit : limit = i + (encode l).length) (hn : (encode l).length ≤ n) :
    getIeFrom mem pbuf index limit n i = locate (fun e => e.id = index) l (pbuf + i) := by
  induction l generalizing n i with
  | nil => exact absurd rfl hne
  | cons e l ih =>
    have hat := h.head
    have htail := h.tail
    rw [encode_length_cons] at hlimit hn
    cases n with
    | zero => omega
    | succ n =>
      rw [getIeFrom, locate, hat.id, hat.len]
      by_cases hid : e.id = index
      · rw [if_pos (congrArg UInt8.toNat hid), if_pos (decide_eq_true hid)]
      · have hother : ¬ decide (e.id = index) = true := by simpa using hid
        rw [if_neg fun heq => hid (UInt8.toNat_inj.mp heq), if_neg hother]
        rw [Nat.add_assoc] at htail ⊢
        by_cases hlast : l = []
        · subst hlast
          exact if_pos (Nat.le_of_eq hlimit)
        · have hpos := encode_length_pos hlast
          dsimp only
          rw [if_neg (by omega)]
          exact ih hlast htail (by omega) (by omega)

theorem rtwGetIe_list (pre rest : List UInt8) (index : UInt8) (l : List Elem) :
    rtwGetIe (pre ++ (encode l ++ rest)) pre.length index (encode l).length =
      locate (fun e => e.id = index) l pre.length := by
  by_cases hl : l = []
  · subst hl
    rfl
  · have hpos := encode_length_pos hl
    rw [rtwGetIe, if_neg (by omega)]
    exact getIeFrom_list index hl ⟨pre, rfl, rfl⟩ (Nat.zero_add _).symm (Nat.le_refl _)

theorem locate_none {wanted : Elem → Bool} {l : List Elem} (start : ℕ)
    (h : ∀ e ∈ l, wanted e = false) : locate wanted l start = none := by
  induction l generalizing start with
  | nil => rfl
  | cons e l ih =>
    have he := h e List.mem_cons_self
    rw [locate, if_neg (by rw [he]; exact Bool.false_ne_true)]
    exact ih _ fun d hd => h d (List.mem_cons_of_mem e hd)

theorem locate_first {wanted : Elem → Bool} {l m : List Elem} {e : Elem} (start : ℕ)
    (h : ∀ d ∈ l, wanted d = false) (he : wanted e = true) :
    locate wanted (l ++ e :: m) start = some (start + (encode l).length, e.data.length) := by
  induction l generalizing start with
  | nil => exact if_pos he
  | cons d l ih =>
    have hd := h d List.mem_cons_self
    rw [List.cons_append, locate, if_neg (by rw [hd]; exact Bool.false_ne_true),
      ih _ fun c hc => h c (List.mem_cons_of_mem d hc), encode_length_cons, Nat.add_assoc]

theorem exists_first (wanted : Elem → Bool) (l : List Elem) : (∀ e ∈ l, wanted e = false) ∨
    ∃ pre e post, l = pre ++ e :: post ∧ (∀ d ∈ pre, wanted d = false) ∧ wanted e = true := by
  induction l with
  | nil => exact .inl nofun
  | cons e l ih =>
    cases he : wanted e with
    | true => exact .inr ⟨[], e, l, rfl, nofun, he⟩
    | false =>
      rcases ih with hnone | ⟨pre, d, post, rfl, hpre, hd⟩
      · exact .inl (List.forall_mem_cons.mpr ⟨he, hnone⟩)
      · exact .inr ⟨e :: pre, d, post, rfl, List.forall_mem_cons.mpr ⟨he, hpre⟩, hd⟩

theorem first_unique {P : Elem → Prop} {A B A' B' : List Elem} {e f : Elem}
    (hA : ∀ d ∈ A, ¬ P d) (hA' : ∀ d ∈ A', ¬ P d) (he : P e) (hf : P f)
    (h : A ++ e :: B = A' ++ f :: B') : A = A' ∧ e = f ∧ B = B' := by
  rcases List.append_eq_append_iff.mp h with ⟨C, rfl, hC⟩ | ⟨C, rfl, hC⟩
  · cases C with
    | nil =>
      obtain ⟨rfl, rfl⟩ := List.cons.inj hC
      exact ⟨(List.append_nil A).symm, rfl, rfl⟩
    | cons c C =>
      obtain ⟨rfl, rfl⟩ := List.cons.inj hC
      exact absurd he (hA' e (by simp))
  · cases C with
    | nil =>
      obtain ⟨rfl, rfl⟩ := List.cons.inj hC
      exact ⟨List.append_nil A', rfl, rfl⟩
    | cons c C =>
      obtain ⟨rfl, rfl⟩ := List.cons.inj hC
      exact absurd hf (hA f (by simp))

/-! ## Moving -/

theorem putBytes_at {pre old : List UInt8} (rest : List UInt8) {bytes : List UInt8}
    (h : bytes.length = old.length) :
    putBytes (pre ++ (old ++ rest)) pre.length bytes = pre ++ (bytes ++ rest) := by
  rw [← List.append_assoc, putBytes_append pre old rest h, List.append_assoc]

theorem putBytes_right (pre tail bytes : List UInt8) :
    putBytes (pre ++ tail) pre.length bytes = pre ++ (bytes ++ tail.drop bytes.length) := by
  have hdrop : (pre ++ tail).drop (pre.length + bytes.length) = tail.drop bytes.length := by
    rw [← List.drop_drop, List.drop_left]
  rw [putBytes, List.take_left, hdrop, List.append_assoc]

theorem moveBytes_down (pre gone kept rest : List UInt8) :
    moveBytes (pre ++ (gone ++ (kept ++ rest))) pre.length (pre.length + gone.length) kept.length =
      pre ++ (kept ++ ((gone ++ kept).drop kept.length ++ rest)) := by
  have hsrc : (pre ++ (gone ++ (kept ++ rest))).drop (pre.length + gone.length) = kept ++ rest := by
    rw [← List.append_assoc, ← List.length_append, List.drop_left]
  have hmem : pre ++ (gone ++ (kept ++ rest)) =
      pre ++ ((gone ++ kept).take kept.length ++ ((gone ++ kept).drop kept.length ++ rest)) := by
    rw [← List.append_assoc ((gone ++ kept).take _), List.take_append_drop, List.append_assoc gone]
  rw [moveBytes, hsrc, List.take_left, hmem, putBytes_at]
  rw [List.length_take, List.length_append]
  omega

end Rtl8189.ElemList
