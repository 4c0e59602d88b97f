import Rtl8189.BeaconEdit

/-!
# Adding elements to the beacon and removing them

`rtw_add_bcn_ie` goes over the elements with smaller ids, and writes behind the last of them, or
over an element with the id. `rtw_remove_bcn_ie` looks for it in the whole list.
-/
namespace Rtl8189.BeaconAdd

open BeaconEdit ElemList IeLookup

/-- The scan of `rtw_add_bcn_ie`: the element that it ends with and its length, and whether that
has the id. -/
def addScan (net : Network) (index : UInt8) : ℕ → ℕ → Option (ℕ × ℕ) → Option (ℕ × ℕ) × Bool
  | 0, _, p => (p, false)
  | n + 1, i, p =>
    if i < net.ielength then
      if index.toNat < byteAt net.ies i then (p, false)
      else if byteAt net.ies i = index.toNat then (some (i, byteAt net.ies (i + 1)), true)
      else addScan net index n (i + (byteAt net.ies (i + 1) + 2)) (some (i, byteAt net.ies (i + 1)))
    else (p, false)

def rtwAddBcnIe (rtwMalloc : ℕ → Bool) (net : Network) (index : UInt8) (data : List UInt8) : Network :=
  match addScan net index net.ielength fixedIeLength none with
  | (some (p, ielen), bmatch) =>
    if 0 < ielen then
      rewrite rtwMalloc net (if bmatch then p else p + (ielen + 2))
        (index :: UInt8.ofNat data.length :: data) (data.length + 2) (p + (ielen + 2))
        (usub net.ielength (p + (ielen + 2)))
    else net
  | (none, _) => net

def rtwRemoveBcnIe (rtwMalloc : ℕ → Bool) (net : Network) (index : UInt8) : Network :=
  match rtwGetIe net.ies fixedIeLength index (net.ielength - fixedIeLength) with
  | some (p, ielen) =>
    if 0 < ielen then
      rewrite rtwMalloc net p [] 0 (p + (ielen + 2)) (usub net.ielength (p + (ielen + 2)))
    else net
  | none => net

/-! ## The scan -/

def lastFrom : List Elem → ℕ → Option (ℕ × ℕ) → Option (ℕ × ℕ)
  | [], _, p => p
  | e :: l, i, _ => lastFrom l (i + (e.data.length + 2)) (some (i, e.data.length))

theorem lastFrom_concat (l : List Elem) (e : Elem) (i : ℕ) (p : Option (ℕ × ℕ)) :
    lastFrom (l ++ [e]) i p = some (i + (encode l).length, e.data.length) := by
  induction l generalizing i p with
  | nil => rfl
  | cons d l ih =>
    rw [List.cons_append, lastFrom, ih, encode_length_cons, Nat.add_assoc]

section Scan

variable {net : Network} {index : UInt8} {rest : List UInt8}

theorem addScan_small {A C : List Elem} (hA : ∀ e ∈ A, e.id < index) {n i : ℕ}
    (p : Option (ℕ × ℕ)) (h : Holds net.ies i (A ++ C) rest)
    (hlen : net.ielength = i + (encode (A ++ C)).length) (hn : (encode (A ++ C)).length ≤ n) :
    ∃ n', (encode C).length ≤ n' ∧
      addScan net index n i p = addScan net index n' (i + (encode A).length) (lastFrom A i p) := by
  induction A generalizing n i p with
  | nil => exact ⟨n, hn, rfl⟩
  | cons e A ih =>
    have hat := h.head
    rw [List.cons_append, encode_length_cons] at hlen hn
    obtain ⟨m, rfl⟩ : ∃ m, n = m + 1 := ⟨n - 1, by omega⟩
    have hid := hA e List.mem_cons_self
    have hlt : byteAt net.ies i < index.toNat := by
      rw [hat.id]
      exact hid
    obtain ⟨n', hn', heq⟩ := ih (fun d hd => hA d (List.mem_cons_of_mem e hd))
      (some (i, e.data.length)) h.tail (n := m) (by omega) (by omega)
    refine ⟨n', hn', ?_⟩
    rw [addScan, if_pos (by omega), if_neg (by omega), if_neg (by omega), hat.len, heq,
      encode_length_cons, Nat.add_assoc]
    rfl

variable {A B : List Elem} (hA : ∀ d ∈ A, d.id < index) {n i : ℕ} (p : Option (ℕ × ℕ))

include hA

theorem addScan_match {e : Elem} (he : e.id = index) (h : Holds net.ies i (A ++ e :: B) rest)
    (hlen : net.ielength = i + (encode (A ++ e :: B)).length)
    (hn : (encode (A ++ e :: B)).length ≤ n) :
    addScan net index n i p = (some (i + (encode A).length, e.data.length), true) := by
  obtain ⟨n', hn', heq⟩ := addScan_small hA p h hlen hn
  have hat := (holds_skip h).head
  have hid : byteAt net.ies (i + (encode A).length) = index.toNat := by rw [hat.id, he]
  rw [encode_length_cons] at hn'
  rw [encode_append, List.length_append, encode_length_cons] at hlen
  obtain ⟨m, rfl⟩ : ∃ m, n' = m + 1 := ⟨n' - 1, by omega⟩
  rw [heq, addScan, if_pos (by omega), if_neg (by omega), if_pos hid, hat.len]

theorem addScan_behind (hB : ∀ d ∈ B.head?, index < d.id) (h : Holds net.ies i (A ++ B) rest)
    (hlen : net.ielength = i + (encode (A ++ B)).length) (hn : (encode (A ++ B)).length ≤ n) :
    addScan net index n i p = (lastFrom A i p, false) := by
  obtain ⟨n', hn', heq⟩ := addScan_small hA p h hlen hn
  rw [encode_append, List.length_append] at hlen
  rw [heq]
  cases B with
  | nil =>
    rw [encode_nil, List.length_nil] at hlen
    cases n' with
    | zero => rfl
    | succ m => rw [addScan, if_neg (by omega)]
  | cons e B =>
    have hat := (holds_skip h).head
    have hgt : index.toNat < byteAt net.ies (i + (encode A).length) := by
      rw [hat.id]
      exact hB e rfl
    rw [encode_length_cons] at hlen hn'
    obtain ⟨m, rfl⟩ : ∃ m, n' = m + 1 := ⟨n' - 1, by omega⟩
    rw [addScan, if_pos (by omega), if_pos hgt]

end Scan

/-! ## The two functions on lists -/

section Lists

variable {rtwMalloc : ℕ → Bool} (h : Mallocs rtwMalloc) {net : Network} {fixed : List UInt8}
  (hfixed : fixed.length = fixedIeLength) {A B : List Elem} {new : Elem}

theorem shows_holds {l : List Elem} (hl : Shows net fixed (encode l)) :
    ∃ rest, Holds net.ies fixed.length l rest := by
  obtain ⟨⟨behind, hmem⟩, -⟩ := hl
  exact ⟨behind, fixed, hmem, rfl⟩

include hfixed

theorem addScan_shows_match (hA : ∀ d ∈ A, d.id < new.id) {e : Elem} (he : e.id = new.id)
    (hl : Shows net fixed (encode (A ++ e :: B))) :
    addScan net new.id net.ielength fixedIeLength none =
      (some (fixedIeLength + (encode A).length, e.data.length), true) := by
  obtain ⟨rest, hholds⟩ := shows_holds hl
  obtain ⟨-, hlen⟩ := hl
  rw [hfixed] at hholds hlen
  exact addScan_match hA none he hholds hlen (by omega)

theorem addScan_shows_behind (hA : ∀ d ∈ A, d.id < new.id) (hB : ∀ d ∈ B.head?, new.id < d.id)
    (hl : Shows net fixed (encode (A ++ B))) :
    addScan net new.id net.ielength fixedIeLength none = (lastFrom A fixedIeLength none, false) := by
  obtain ⟨rest, hholds⟩ := shows_holds hl
  obtain ⟨-, hlen⟩ := hl
  rw [hfixed] at hholds hlen
  exact addScan_behind hA none hB hholds hlen (by omega)

include h in
theorem add_match (hA : ∀ d ∈ A, d.id < new.id) {e : Elem} (he : e.id = new.id)
    (hl : Shows net fixed (encode (A ++ e :: B)))
    (hfits : (encode (A ++ e :: B)).length < 2 ^ 21) (hdata : e.data ≠ []) :
    Shows (rtwAddBcnIe rtwMalloc net new.id new.data) fixed (encode (A ++ new :: B)) := by
  have hsize : (encode [e]).length = e.data.length + 2 := by
    rw [encode_length_cons, encode_nil, List.length_nil]
  have hone : Shows net fixed (encode (A ++ ([e] ++ B))) := hl
  have hshows := rewrite_elems h hfixed hone (Nat.le_refl new.bytes.length)
    (Elem.bytes_length_le new) hfits
  rw [List.take_length, ← encode_insert, hsize] at hshows
  rw [rtwAddBcnIe, addScan_shows_match hfixed hA he hl]
  dsimp only
  rw [if_pos (List.length_pos_iff.mpr hdata), if_pos rfl, ← new.bytes_length]
  exact hshows

include h in
theorem add_behind {d : Elem} (hA : ∀ e ∈ A ++ [d], e.id < new.id)
    (hB : ∀ e ∈ B.head?, new.id < e.id) (hl : Shows net fixed (encode ((A ++ [d]) ++ B)))
    (hfits : (encode ((A ++ [d]) ++ B)).length < 2 ^ 21) (hdata : d.data ≠ []) :
    Shows (rtwAddBcnIe rtwMalloc net new.id new.data) fixed (encode ((A ++ [d]) ++ new :: B)) := by
  have hsize : (encode (A ++ [d])).length = (encode A).length + (d.data.length + 2) := by
    rw [encode_append, List.length_append, encode_length_cons, encode_nil, List.length_nil]
  have hnone : Shows net fixed (encode ((A ++ [d]) ++ ([] ++ B))) := hl
  have hshows := rewrite_elems h hfixed hnone (Nat.le_refl new.bytes.length)
    (Elem.bytes_length_le new) hfits
  rw [List.take_length, ← encode_insert, hsize, encode_nil, List.length_nil, Nat.add_zero,
    ← Nat.add_assoc] at hshows
  rw [rtwAddBcnIe, addScan_shows_behind hfixed hA hB hl, lastFrom_concat]
  dsimp only
  rw [if_pos (List.length_pos_iff.mpr hdata), if_neg Bool.false_ne_true, ← new.bytes_length]
  exact hshows

def Anchored (index : UInt8) (l : List Elem) : Prop :=
  ∃ d ∈ (l.takeWhile fun e => e.id < index).getLast?, d.data ≠ []

omit hfixed in
theorem anchored_iff {index : UInt8} (hA : ∀ d ∈ A, d.id < index)
    (hB : ∀ d ∈ B.head?, ¬ d.id < index) :
    Anchored index (A ++ B) ↔ ∃ C d, A = C ++ [d] ∧ d.data ≠ [] := by
  have htake : (A ++ B).takeWhile (fun e => e.id < index) = A := by
    rw [List.takeWhile_append_of_pos fun d hd => decide_eq_true (hA d hd)]
    cases B with
    | nil => rw [List.takeWhile_nil, List.append_nil]
    | cons e B =>
      have hstop : ¬ decide (e.id < index) = true := by simpa using hB e rfl
      rw [List.takeWhile_cons, if_neg hstop, List.append_nil]
  rw [Anchored, htake]
  constructor
  · rintro ⟨d, hd, hdata⟩
    obtain ⟨C, rfl⟩ := List.getLast?_eq_some_iff.mp hd
    exact ⟨C, d, rfl, hdata⟩
  · rintro ⟨C, d, rfl, hdata⟩
    exact ⟨d, List.getLast?_concat, hdata⟩

theorem add_unchanged (hA : ∀ d ∈ A, d.id < new.id) (hB : ∀ d ∈ B.head?, new.id < d.id)
    (hl : Shows net fixed (encode (A ++ B))) (hlast : ¬ Anchored new.id (A ++ B)) :
    rtwAddBcnIe rtwMalloc net new.id new.data = net := by
  have hB' : ∀ d ∈ B.head?, ¬ d.id < new.id := fun d hd => UInt8.lt_asymm (hB d hd)
  rw [anchored_iff hA hB'] at hlast
  rw [rtwAddBcnIe, addScan_shows_behind hfixed hA hB hl]
  rcases List.eq_nil_or_concat A with rfl | ⟨C, d, hC⟩
  · rfl
  · rw [List.concat_eq_append] at hC
    subst hC
    have hdata : d.data = [] := by
      by_contra hne
      exact hlast ⟨C, d, rfl, hne⟩
    rw [lastFrom_concat, hdata]
    exact if_neg (Nat.lt_irrefl 0)

include h in
theorem remove_first {index : UInt8} {e : Elem} (hA : ∀ d ∈ A, d.id ≠ index) (he : e.id = index)
    (hl : Shows net fixed (encode (A ++ e :: B)))
    (hfits : (encode (A ++ e :: B)).length < 2 ^ 21) (hdata : e.data ≠ []) :
    Shows (rtwRemoveBcnIe rtwMalloc net index) fixed (encode (A ++ B)) := by
  have hsize : (encode [e]).length = e.data.length + 2 := by
    rw [encode_length_cons, encode_nil, List.length_nil]
  have hone : Shows net fixed (encode (A ++ ([e] ++ B))) := hl
  have hnone : 0 ≤ ([] : List UInt8).length := Nat.le_refl 0
  have hshows := rewrite_elems h hfixed hone hnone (Nat.zero_le _) hfits
  rw [List.take_nil, List.nil_append, ← encode_append, hsize] at hshows
  delta rtwRemoveBcnIe
  rw [lookup hfixed hl, locate_first fixedIeLength (by simpa using hA)
    (decide_eq_true he)]
  dsimp only
  rw [if_pos (List.length_pos_iff.mpr hdata)]
  exact hshows

theorem remove_empty {index : UInt8} {e : Elem} (hA : ∀ d ∈ A, d.id ≠ index) (he : e.id = index)
    (hl : Shows net fixed (encode (A ++ e :: B))) (hdata : e.data = []) :
    rtwRemoveBcnIe rtwMalloc net index = net := by
  delta rtwRemoveBcnIe
  rw [lookup hfixed hl, locate_first fixedIeLength (by simpa using hA)
    (decide_eq_true he), hdata]
  exact if_neg (Nat.lt_irrefl 0)

theorem remove_absent {index : UInt8} {l : List Elem} (hnone : ∀ d ∈ l, d.id ≠ index)
    (hl : Shows net fixed (encode l)) : rtwRemoveBcnIe rtwMalloc net index = net := by
  delta rtwRemoveBcnIe
  rw [lookup hfixed hl, locate_none fixedIeLength (by simpa using hnone)]

end Lists

def Ordered (l : List Elem) : Prop := l.Pairwise fun d e => d.id ≤ e.id

/-- The first element with the id is replaced; if there is none, the new one is inserted, in its
place if the others are in order. -/
def Adds (net : Network) (fixed : List UInt8) (l : List Elem) (new : Elem) : Prop :=
  (∀ A e B, l = A ++ e :: B → (∀ d ∈ A, d.id ≠ new.id) → e.id = new.id →
      Shows net fixed (encode (A ++ new :: B))) ∧
    ((∀ e ∈ l, e.id ≠ new.id) → ∃ A B, l = A ++ B ∧ Shows net fixed (encode (A ++ new :: B)) ∧
      (Ordered l → Ordered (A ++ new :: B)))

def Removes (net : Network) (fixed : List UInt8) (l : List Elem) (index : UInt8) : Prop :=
  (∀ A e B, l = A ++ e :: B → (∀ d ∈ A, d.id ≠ index) → e.id = index →
      Shows net fixed (encode (A ++ B))) ∧
    ((∀ e ∈ l, e.id ≠ index) → Shows net fixed (encode l))

def Edits (rtwMalloc : ℕ → Bool) (b : Beacon) (new : Elem) : Prop :=
  Adds (rtwAddBcnIe rtwMalloc b.network new.id new.data) b.fixed b.elems new ∧
    Removes (rtwRemoveBcnIe rtwMalloc b.network new.id) b.fixed b.elems new.id ∧
    ((∀ e ∈ b.elems, e.id ≠ new.id) →
      Shows (rtwRemoveBcnIe rtwMalloc (rtwAddBcnIe rtwMalloc b.network new.id new.data) new.id)
        b.fixed (encode b.elems))

/-- No element with the id is there, and the new one has a body to stand behind and one of its own;
or the first with the id has a body, and it is reached, or it is the new one and nothing is
written. -/
def Editable (l : List Elem) (new : Elem) : Prop :=
  (∀ e ∈ l, e.id ≠ new.id) ∧ Anchored new.id l ∧ new.data ≠ [] ∨
    ∃ A e B, l = A ++ e :: B ∧ (∀ d ∈ A, d.id ≠ new.id) ∧ e.id = new.id ∧ e.data ≠ [] ∧
      ((∀ d ∈ A, d.id < new.id) ∨ e = new ∧ ¬ Anchored new.id l)

/-! ## Exactly the lists that are edited -/

section Exact

variable {rtwMalloc : ℕ → Bool} (h : Mallocs rtwMalloc) (b : Beacon) (new : Elem)

theorem exists_split (index : UInt8) (l : List Elem) : ∃ A B, l = A ++ B ∧
    (∀ e ∈ A, e.id < index) ∧ ∀ e ∈ B.head?, ¬ e.id < index := by
  rcases exists_first (fun e => ¬ e.id < index) l with hnone | ⟨A, e, B, rfl, hA, he⟩
  · exact ⟨l, [], (List.append_nil l).symm, by simpa using hnone, nofun⟩
  · refine ⟨A, e :: B, rfl, by simpa using hA, ?_⟩
    rintro d hd
    cases hd
    exact of_decide_eq_true he

theorem ordered_insert {A B : List Elem} (hA : ∀ e ∈ A, e.id < new.id)
    (hB : ∀ e ∈ B.head?, new.id < e.id) (hl : Ordered (A ++ B)) : Ordered (A ++ new :: B) := by
  obtain ⟨hleft, hright, hcross⟩ := List.pairwise_append.mp hl
  have hnew : ∀ e ∈ B, new.id ≤ e.id := by
    cases B with
    | nil => exact nofun
    | cons c B =>
      have hc : new.id < c.id := hB c rfl
      refine List.forall_mem_cons.mpr ⟨UInt8.le_of_lt hc, fun e he => ?_⟩
      exact UInt8.le_trans (UInt8.le_of_lt hc) ((List.pairwise_cons.mp hright).1 e he)
  refine List.pairwise_append.mpr ⟨hleft, List.pairwise_cons.mpr ⟨hnew, hright⟩, ?_⟩
  intro a ha
  refine List.forall_mem_cons.mpr ⟨UInt8.le_of_lt (hA a ha), hcross a ha⟩

theorem encode_insert_ne (A B : List Elem) (e : Elem) : encode (A ++ B) ≠ encode (A ++ e :: B) := by
  intro heq
  have hlen := congrArg List.length heq
  rw [encode_append, encode_append, List.length_append, List.length_append,
    encode_length_cons] at hlen
  omega

include h in
theorem edits_absent (hnone : ∀ e ∈ b.elems, e.id ≠ new.id) :
    Edits rtwMalloc b new ↔ Anchored new.id b.elems ∧ new.data ≠ [] := by
  have hfits := b.fits
  have hshows := b.shows
  have hremove : Removes (rtwRemoveBcnIe rtwMalloc b.network new.id) b.fixed b.elems new.id := by
    rw [remove_absent b.fixed_length hnone hshows]
    refine ⟨fun A e B hl _ he => ?_, fun _ => hshows⟩
    exact absurd he (hnone e (by rw [hl]; simp))
  have hfirst : ∀ {P : Prop} {A B : List Elem} {e : Elem}, b.elems = A ++ e :: B →
      e.id = new.id → P := fun {P A B e} hl he => absurd he (hnone e (by rw [hl]; simp))
  obtain ⟨A, B, hl, hA, hB⟩ := exists_split new.id b.elems
  have hB' : ∀ e ∈ B.head?, new.id < e.id := by
    intro e he
    have hmem : e ∈ b.elems := by
      rw [hl]
      exact List.mem_append_right A (List.mem_of_mem_head? he)
    exact UInt8.lt_of_le_of_ne (UInt8.not_lt.mp (hB e he)) (hnone e hmem).symm
  rw [Edits, and_iff_right hremove]
  have hbehind := anchored_iff hA hB
  by_cases hlast : Anchored new.id b.elems
  · rw [and_iff_right hlast]
    rw [hl] at hlast hnone hshows hfits ⊢
    obtain ⟨C, d, rfl, hdata⟩ := hbehind.mp hlast
    have hadd := add_behind h b.fixed_length hA hB' hshows (hfits.trans (by decide)) hdata
    have hadds : Adds (rtwAddBcnIe rtwMalloc b.network new.id new.data) b.fixed
        ((C ++ [d]) ++ B) new :=
      ⟨fun _ _ _ hsplit _ he => hfirst (hl.trans hsplit) he,
        fun _ => ⟨C ++ [d], B, rfl, hadd, ordered_insert new hA hB'⟩⟩
    rw [and_iff_right hadds, forall_prop_of_true hnone]
    have hbefore : ∀ e ∈ C ++ [d], e.id ≠ new.id := fun e he =>
      hnone e (List.mem_append_left B he)
    have hsize : (encode ((C ++ [d]) ++ new :: B)).length < 2 ^ 21 := by
      have hnew := new.fits
      rw [encode_append, List.length_append] at hfits ⊢
      rw [encode_length_cons]
      omega
    by_cases hnew : new.data = []
    · rw [remove_empty b.fixed_length hbefore rfl hadd hnew]
      refine iff_of_false (fun hback => ?_) (not_not.mpr hnew)
      exact encode_insert_ne (C ++ [d]) B new (hback.unique hadd)
    · exact iff_of_true (remove_first h b.fixed_length hbefore rfl hadd hsize hnew) hnew
  · refine iff_of_false (fun hedits => ?_) fun hc => hlast hc.1
    obtain ⟨C, D, hsplit, hshows', -⟩ := hedits.1.2 hnone
    have hsame : rtwAddBcnIe rtwMalloc b.network new.id new.data = b.network := by
      rw [hl] at hlast hshows
      exact add_unchanged b.fixed_length hA hB' hshows hlast
    rw [hsame] at hshows'
    rw [hsplit] at hshows
    exact encode_insert_ne C D new (hshows.unique hshows')

include h in
theorem edits_present {A B : List Elem} {e : Elem} (hl : b.elems = A ++ e :: B)
    (hA : ∀ d ∈ A, d.id ≠ new.id) (he : e.id = new.id) :
    Edits rtwMalloc b new ↔
      e.data ≠ [] ∧ ((∀ d ∈ A, d.id < new.id) ∨ e = new ∧ ¬ Anchored new.id b.elems) := by
  have hfits := b.fits
  have hshows := b.shows
  have hsize : (encode b.elems).length < 2 ^ 21 := hfits.trans (by decide)
  have hmem : ¬ ∀ d ∈ b.elems, d.id ≠ new.id := fun hnone => hnone e (by rw [hl]; simp) he
  have hunique : ∀ C f D, b.elems = C ++ f :: D → (∀ d ∈ C, d.id ≠ new.id) → f.id = new.id →
      C = A ∧ D = B := by
    intro C f D hsplit hC hf
    obtain ⟨rfl, -, rfl⟩ := first_unique (P := fun d => d.id = new.id) hC hA hf he
      (hsplit.symm.trans hl)
    exact ⟨rfl, rfl⟩
  have hadds : ∀ net, Adds net b.fixed b.elems new ↔
      Shows net b.fixed (encode (A ++ new :: B)) := by
    intro net
    refine ⟨fun hadd => hadd.1 A e B hl hA he, fun hadd => ⟨?_, fun hnone => absurd hnone hmem⟩⟩
    intro C f D hsplit hC hf
    obtain ⟨rfl, rfl⟩ := hunique C f D hsplit hC hf
    exact hadd
  have hremoves : ∀ net, Removes net b.fixed b.elems new.id ↔
      Shows net b.fixed (encode (A ++ B)) := by
    intro net
    refine ⟨fun hdel => hdel.1 A e B hl hA he, fun hdel => ⟨?_, fun hnone => absurd hnone hmem⟩⟩
    intro C f D hsplit hC hf
    obtain ⟨rfl, rfl⟩ := hunique C f D hsplit hC hf
    exact hdel
  rw [Edits, hadds, hremoves, and_iff_left (b := _ → _) fun hnone => absurd hnone hmem]
  by_cases hdata : e.data = []
  · refine iff_of_false (fun hedits => ?_) fun hc => hc.1 hdata
    rw [hl] at hshows
    rw [remove_empty b.fixed_length hA he hshows hdata] at hedits
    exact encode_insert_ne A B e (hedits.2.unique hshows)
  · have hdel : Shows (rtwRemoveBcnIe rtwMalloc b.network new.id) b.fixed (encode (A ++ B)) := by
      rw [hl] at hshows hsize
      exact remove_first h b.fixed_length hA he hshows hsize hdata
    rw [and_iff_left hdel, and_iff_right hdata]
    by_cases hsmall : ∀ d ∈ A, d.id < new.id
    · refine iff_of_true ?_ (.inl hsmall)
      rw [hl] at hshows hsize
      exact add_match h b.fixed_length hsmall he hshows hsize hdata
    · rw [or_iff_right hsmall]
      -- the scan ends before the element, at one with a greater id
      obtain ⟨C, D, rfl, hC, hD⟩ := exists_split new.id A
      have hgreater : ∀ d ∈ (D ++ e :: B).head?, new.id < d.id := by
        cases D with
        | nil =>
          rw [List.append_nil] at hsmall
          exact absurd hC hsmall
        | cons g D =>
          rintro d hd
          cases hd
          exact UInt8.lt_of_le_of_ne (UInt8.not_lt.mp (hD g rfl)) (hA g (by simp)).symm
      have hl' : b.elems = C ++ (D ++ e :: B) := by rw [hl, List.append_assoc]
      have hanchored := anchored_iff hC fun d hd => UInt8.lt_asymm (hgreater d hd)
      by_cases hlast : Anchored new.id b.elems
      · refine iff_of_false (fun hadd => ?_) fun hc => hc.2 hlast
        rw [hl'] at hlast hshows hsize
        obtain ⟨C, c, rfl, hcdata⟩ := hanchored.mp hlast
        have hbehind := add_behind h b.fixed_length hC hgreater hshows hsize hcdata
        have hlen := congrArg List.length (hadd.unique hbehind)
        simp only [encode_append, encode_length_cons, List.length_append] at hlen
        omega
      · rw [and_iff_left hlast]
        have hsame : rtwAddBcnIe rtwMalloc b.network new.id new.data = b.network := by
          rw [hl'] at hlast hshows
          exact add_unchanged b.fixed_length hC hgreater hshows hlast
        rw [hsame]
        constructor
        · intro hadd
          have hlist := encode_injective (hshows.unique hadd)
          rw [hl] at hlist
          exact (List.cons.inj (List.append_cancel_left hlist)).1
        · rintro rfl
          rw [← hl]
          exact hshows

include h in
/-- Adding and removing edit exactly these lists. -/
theorem beacon_ies_edited : Edits rtwMalloc b new ↔ Editable b.elems new := by
  rcases exists_first (fun e => e.id = new.id) b.elems with hnone | ⟨A, e, B, hl, hA, he⟩
  · have hnone' : ∀ e ∈ b.elems, e.id ≠ new.id := by simpa using hnone
    rw [edits_absent h b new hnone', Editable, and_iff_right hnone', or_iff_left]
    rintro ⟨A, e, B, hl, -, he, -⟩
    exact hnone' e (by rw [hl]; simp) he
  · have hA' : ∀ d ∈ A, d.id ≠ new.id := by simpa using hA
    have he' : e.id = new.id := of_decide_eq_true he
    rw [edits_present h b new hl hA' he']
    constructor
    · rintro ⟨hdata, hreached⟩
      exact .inr ⟨A, e, B, hl, hA', he', hdata, hreached⟩
    · rintro (⟨hnone, -⟩ | ⟨C, f, D, hsplit, hC, hf, hdata, hreached⟩)
      · exact absurd he' (hnone e (by rw [hl]; simp))
      · obtain ⟨rfl, rfl, rfl⟩ := first_unique (P := fun d => d.id = new.id) hC hA' hf he'
          (hsplit.symm.trans hl)
        exact ⟨hdata, hreached⟩

theorem beacon_ies_edited_ds :
    Edits smallOnly (oneBeacon [ssidElem, ratesElem, extRatesElem] (by decide)) dsElem := by
  refine (beacon_ies_edited smallOnly_mallocs (oneBeacon _ (by decide)) dsElem).mpr (.inl ?_)
  exact ⟨by decide, ⟨ratesElem, rfl, by decide⟩, by decide⟩

end Exact

/-- Behind a hidden SSID nothing is added. -/
theorem hidden_ssid_not_edited :
    ¬ Edits smallOnly (oneBeacon [⟨0, [], by decide⟩, extRatesElem] (by decide)) dsElem := by
  rw [edits_absent smallOnly_mallocs (oneBeacon _ (by decide)) dsElem (by decide)]
  rintro ⟨⟨d, hd, hdata⟩, -⟩
  cases hd
  exact hdata rfl

end Rtl8189.BeaconAdd
