import Rtl8189.HashBuckets

/-!
# Hash chains with back pointers

A node points to the next node of its bucket, and back to the field that points
to it: the head of the bucket or the `next` field of another node. A node is
linked in at the head of a bucket and can be unlinked without the bucket.
-/
namespace Rtl8189.Hlist

open HashBuckets (Houses)

inductive Slot (κ π : Type*) where
  | head (k : κ)
  | next (p : π)

structure Links (κ π : Type*) where
  head : κ → Option π
  next : π → Option π
  pprev : π → Option (Slot κ π)

variable {κ π : Type*}

theorem Slot.head_ne_next {k : κ} {p : π} : (.head k : Slot κ π) ≠ .next p := by
  intro h
  cases h

namespace Links

def get (l : Links κ π) : Slot κ π → Option π
  | .head k => l.head k
  | .next p => l.next p

variable [DecidableEq κ] [DecidableEq π]

def set (l : Links κ π) : Slot κ π → Option π → Links κ π
  | .head k, q => { l with head := Function.update l.head k q }
  | .next p, q => { l with next := Function.update l.next p q }

omit [DecidableEq κ] in
def setPprev (l : Links κ π) (p : π) (s : Option (Slot κ π)) : Links κ π :=
  { l with pprev := Function.update l.pprev p s }

omit [DecidableEq κ] in
def setBack (l : Links κ π) (q : Option π) (s : Slot κ π) : Links κ π :=
  match q with
  | some p => l.setPprev p (some s)
  | none => l

def link (l : Links κ π) (p : π) (k : κ) : Links κ π :=
  let q := l.head k
  (((l.set (.next p) q).setBack q (.next p)).set (.head k) (some p)).setPprev p (some (.head k))

def unlink (l : Links κ π) (p : π) : Links κ π :=
  match l.pprev p with
  | none => l
  | some s =>
    let q := l.next p
    (((l.set s q).setBack q s).set (.next p) none).setPprev p none

end Links

/-- The field `s` points to the first of the nodes and each node to the one after it,
and each points back. -/
def Chain (l : Links κ π) : Slot κ π → List π → Prop
  | s, [] => l.get s = none
  | s, p :: ps => l.get s = some p ∧ l.pprev p = some s ∧ Chain l (.next p) ps

variable {l l' : Links κ π} {s t : Slot κ π} {p q : π} {ps as bs : List π}

theorem Chain.congr (h : Chain l s ps) (hget : l'.get s = l.get s)
    (hnext : ∀ p ∈ ps, l'.next p = l.next p) (hpprev : ∀ p ∈ ps, l'.pprev p = l.pprev p) :
    Chain l' s ps := by
  induction ps generalizing s with
  | nil => exact hget.trans h
  | cons p ps ih =>
    obtain ⟨hs, hback, hrest⟩ := h
    refine ⟨hget.trans hs, (hpprev p List.mem_cons_self).trans hback, ?_⟩
    refine ih hrest (hnext p List.mem_cons_self) ?_ ?_
    · intro q hq
      exact hnext q (List.mem_cons_of_mem p hq)
    · intro q hq
      exact hpprev q (List.mem_cons_of_mem p hq)

theorem Chain.next_mem (h : Chain l s ps) (hp : p ∈ ps) (hq : l.next p = some q) : q ∈ ps := by
  induction ps generalizing s with
  | nil => cases hp
  | cons a ps ih =>
    obtain ⟨-, -, hrest⟩ := h
    rcases List.mem_cons.mp hp with rfl | hp
    · cases ps with
      | nil => exact absurd (hrest.symm.trans hq) (Option.some_ne_none q).symm
      | cons b ps =>
        obtain rfl : b = q := Option.some.inj (hrest.1.symm.trans hq)
        exact List.mem_cons_of_mem _ List.mem_cons_self
    · exact List.mem_cons_of_mem a (ih hrest hp)

theorem Chain.pprev_mem (h : Chain l s ps) (hp : p ∈ ps) :
    ∃ t, l.pprev p = some t ∧ (t = s ∨ ∃ r ∈ ps, t = .next r) := by
  induction ps generalizing s with
  | nil => cases hp
  | cons a ps ih =>
    obtain ⟨-, hback, hrest⟩ := h
    rcases List.mem_cons.mp hp with rfl | hp
    · exact ⟨s, hback, .inl rfl⟩
    · obtain ⟨t, ht, htwo⟩ := ih hrest hp
      refine ⟨t, ht, .inr ?_⟩
      rcases htwo with rfl | ⟨r, hr, rfl⟩
      · exact ⟨a, List.mem_cons_self, rfl⟩
      · exact ⟨r, List.mem_cons_of_mem a hr, rfl⟩

theorem Chain.get_eq (h : Chain l s ps) : l.get s = ps.head? := by
  cases ps with
  | nil => exact h
  | cons p ps => exact h.1

theorem Chain.next_eq (h : Chain l s (as ++ p :: bs)) : l.next p = bs.head? := by
  induction as generalizing s with
  | nil => exact h.2.2.get_eq
  | cons a as ih => exact ih h.2.2

/-! ## What the moves change -/

variable [DecidableEq κ] [DecidableEq π]

theorem set_get_self (l : Links κ π) (s : Slot κ π) (q : Option π) : (l.set s q).get s = q := by
  cases s with
  | head k => exact Function.update_self k q l.head
  | next p => exact Function.update_self p q l.next

theorem set_get_of_ne (l : Links κ π) (q : Option π) (h : t ≠ s) :
    (l.set s q).get t = l.get t := by
  cases s with
  | head k =>
    cases t with
    | head j => exact Function.update_of_ne (fun hj => h (congrArg Slot.head hj)) _ _
    | next r => rfl
  | next p =>
    cases t with
    | head j => rfl
    | next r => exact Function.update_of_ne (fun hr => h (congrArg Slot.next hr)) _ _

@[simp] theorem set_pprev (l : Links κ π) (s : Slot κ π) (q : Option π) :
    (l.set s q).pprev = l.pprev := by
  cases s <;> rfl

omit [DecidableEq κ] in
@[simp] theorem setPprev_get (l : Links κ π) (p : π) (s : Option (Slot κ π)) :
    (l.setPprev p s).get t = l.get t := by
  cases t <;> rfl

omit [DecidableEq κ] in
@[simp] theorem setBack_get (l : Links κ π) (q : Option π) (s : Slot κ π) :
    (l.setBack q s).get t = l.get t := by
  cases q with
  | none => rfl
  | some p => exact setPprev_get l p (some s)

omit [DecidableEq κ] in
theorem setBack_pprev (l : Links κ π) (r : Option π) (s : Slot κ π) (q : π) :
    (l.setBack r s).pprev q = if r = some q then some s else l.pprev q := by
  cases r with
  | none => rfl
  | some p =>
    simp only [Links.setBack, Links.setPprev, Function.update_apply, Option.some.injEq]
    split_ifs with h h' h'
    · rfl
    · exact absurd h.symm h'
    · exact absurd h'.symm h
    · rfl

theorem link_get_head (l : Links κ π) (p : π) (k : κ) :
    (l.link p k).get (.head k) = some p := by
  simp only [Links.link, setPprev_get, set_get_self]

theorem link_get_next (l : Links κ π) (p : π) (k : κ) :
    (l.link p k).get (.next p) = l.head k := by
  simp only [Links.link, setPprev_get]
  rw [set_get_of_ne _ _ Slot.head_ne_next.symm, setBack_get, set_get_self]

theorem link_get_of_ne (l : Links κ π) {k : κ} (hk : t ≠ .head k) (hp : t ≠ .next p) :
    (l.link p k).get t = l.get t := by
  simp only [Links.link, setPprev_get]
  rw [set_get_of_ne _ _ hk, setBack_get, set_get_of_ne _ _ hp]

theorem link_pprev_self (l : Links κ π) (p : π) (k : κ) :
    (l.link p k).pprev p = some (.head k) := Function.update_self p _ _

theorem link_pprev_of_ne (l : Links κ π) (k : κ) (hq : q ≠ p) :
    (l.link p k).pprev q = if l.head k = some q then some (.next p) else l.pprev q := by
  simp only [Links.link, Links.setPprev]
  rw [Function.update_of_ne hq, set_pprev, setBack_pprev, set_pprev]

theorem unlink_get (hs : l.pprev p = some s) (hp : s ≠ .next p) :
    (l.unlink p).get s = l.next p := by
  simp only [Links.unlink, hs, setPprev_get]
  rw [set_get_of_ne _ _ hp, setBack_get, set_get_self]

theorem unlink_get_of_ne (hs : l.pprev p = some s) (ht : t ≠ s) (hp : t ≠ .next p) :
    (l.unlink p).get t = l.get t := by
  simp only [Links.unlink, hs, setPprev_get]
  rw [set_get_of_ne _ _ hp, setBack_get, set_get_of_ne _ _ ht]

theorem unlink_pprev (hs : l.pprev p = some s) (hq : q ≠ p) :
    (l.unlink p).pprev q = if l.next p = some q then some s else l.pprev q := by
  simp only [Links.unlink, hs, Links.setPprev]
  rw [Function.update_of_ne hq, set_pprev, setBack_pprev, set_pprev]

/-! ## Chains -/

theorem Chain.link {k : κ} (h : Chain l (.head k) ps) (hp : p ∉ ps) (hn : ps.Nodup) :
    Chain (l.link p k) (.head k) (p :: ps) := by
  refine ⟨link_get_head l p k, link_pprev_self l p k, ?_⟩
  cases ps with
  | nil => exact (link_get_next l p k).trans h
  | cons a ps =>
    obtain ⟨hget, -, hrest⟩ := h
    have hne : ∀ r ∈ a :: ps, r ≠ p := fun r hr hrp => hp (hrp ▸ hr)
    have hhead : l.head k = some a := hget
    refine ⟨(link_get_next l p k).trans hget, ?_, hrest.congr ?_ ?_ ?_⟩
    · rw [link_pprev_of_ne l k (hne a List.mem_cons_self), if_pos hhead]
    · exact link_get_of_ne l Slot.head_ne_next.symm fun h => hne a List.mem_cons_self (Slot.next.inj h)
    · intro r hr
      exact link_get_of_ne (t := .next r) l Slot.head_ne_next.symm
        fun h => hne r (List.mem_cons_of_mem a hr) (Slot.next.inj h)
    · intro r hr
      rw [link_pprev_of_ne l k (hne r (List.mem_cons_of_mem a hr)), if_neg]
      rw [hhead, Option.some.injEq]
      rintro rfl
      exact (List.nodup_cons.mp hn).1 hr

theorem Chain.unlink (h : Chain l s (as ++ p :: bs)) (hn : (as ++ p :: bs).Nodup)
    (hs : ∀ r ∈ as ++ p :: bs, s ≠ .next r) : Chain (l.unlink p) s (as ++ bs) := by
  induction as generalizing s with
  | nil =>
    obtain ⟨-, hback, hrest⟩ := h
    have hp := hs p List.mem_cons_self
    have hnp := (List.nodup_cons.mp hn).1
    cases bs with
    | nil => exact (unlink_get hback hp).trans hrest
    | cons b bs =>
      obtain ⟨hnext, -, htail⟩ := hrest
      have hne : ∀ r ∈ b :: bs, r ≠ p := fun r hr hrp => hnp (hrp ▸ hr)
      have hkeep : ∀ r ∈ b :: bs, (l.unlink p).next r = l.next r := by
        intro r hr
        exact unlink_get_of_ne (t := .next r) hback (hs r (List.mem_cons_of_mem p hr)).symm
          fun h => hne r hr (Slot.next.inj h)
      refine ⟨(unlink_get hback hp).trans hnext, ?_, htail.congr ?_ ?_ ?_⟩
      · rw [unlink_pprev hback (hne b List.mem_cons_self)]
        exact if_pos hnext
      · exact hkeep b List.mem_cons_self
      · exact fun r hr => hkeep r (List.mem_cons_of_mem b hr)
      · intro r hr
        rw [unlink_pprev hback (hne r (List.mem_cons_of_mem b hr)), if_neg]
        rintro hr'
        obtain rfl : b = r := Option.some.inj (hnext.symm.trans hr')
        exact (List.nodup_cons.mp (List.nodup_cons.mp hn).2).1 hr
  | cons a as ih =>
    obtain ⟨hget, hback, hrest⟩ := h
    have hna := (List.nodup_cons.mp hn).1
    have hmem : p ∈ as ++ p :: bs := List.mem_append_right _ List.mem_cons_self
    have hap : a ≠ p := fun h => hna (h ▸ hmem)
    obtain ⟨t, ht, htwo⟩ := hrest.pprev_mem hmem
    have hst : s ≠ t := by
      rcases htwo with rfl | ⟨r, hr, rfl⟩
      · exact hs a List.mem_cons_self
      · exact hs r (List.mem_cons_of_mem a hr)
    refine ⟨?_, ?_, ih hrest (List.nodup_cons.mp hn).2 ?_⟩
    · rw [unlink_get_of_ne ht hst (hs p (List.mem_cons_of_mem a hmem)), hget]
    · rw [unlink_pprev ht hap, if_neg, hback]
      intro hpa
      exact hna (hrest.next_mem hmem hpa)
    · intro r hr hra
      exact hna (Slot.next.inj hra ▸ hr)

/-! ## Tables -/

def Chained (l : Links κ π) (b : κ → List π) : Prop := ∀ k, Chain l (.head k) (b k)

variable {b : κ → List π} {home : π → Option κ}

theorem Chained.link (h : Chained l b) (hb : Houses b home) (hp : home p = none) (k : κ) :
    Chained (l.link p k) (HashBuckets.insertHead b k p) := by
  have hout : ∀ j, p ∉ b j := by
    intro j hj
    rw [hb.mem_iff, hp] at hj
    cases hj
  intro j
  by_cases hj : j = k
  · subst hj
    rw [HashBuckets.insertHead, Function.update_self]
    exact (h j).link (hout j) (hb.nodup j)
  · rw [HashBuckets.insertHead, Function.update_of_ne hj]
    refine (h j).congr ?_ ?_ ?_
    · exact link_get_of_ne l (fun h => hj (Slot.head.inj h)) Slot.head_ne_next
    · intro r hr
      exact link_get_of_ne (t := .next r) l Slot.head_ne_next.symm
        fun h => hout j (Slot.next.inj h ▸ hr)
    · intro r hr
      have hrp : r ≠ p := fun h => hout j (h ▸ hr)
      rw [link_pprev_of_ne l k hrp, if_neg]
      intro hk
      -- the first node of the other bucket is not in this one
      cases hbk : b k with
      | nil =>
        have hnone := h k
        rw [hbk] at hnone
        exact absurd (hnone.symm.trans hk) (Option.some_ne_none r).symm
      | cons a as =>
        have hfirst := h k
        rw [hbk] at hfirst
        obtain rfl : a = r := Option.some.inj (hfirst.1.symm.trans hk)
        have hhome := (hb.mem_iff j a).mp hr
        rw [(hb.mem_iff k a).mp (hbk ▸ List.mem_cons_self)] at hhome
        exact hj (Option.some.inj hhome).symm

theorem Chained.unlink (h : Chained l b) (hb : Houses b home) {k : κ} (hp : p ∈ b k) :
    Chained (l.unlink p) (HashBuckets.unlink b p) := by
  intro j
  by_cases hj : j = k
  · subst hj
    obtain ⟨as, bs, hsplit⟩ := List.append_of_mem hp
    have hn := hb.nodup j
    have hchain := h j
    rw [hsplit] at hn hchain
    have hnot : p ∉ as := by
      intro has
      exact (List.disjoint_of_nodup_append hn) has List.mem_cons_self
    rw [HashBuckets.unlink, hsplit, List.erase_append_right _ hnot, List.erase_cons_head]
    exact hchain.unlink hn fun _ _ => Slot.head_ne_next
  · obtain ⟨t, ht, htwo⟩ := (h k).pprev_mem hp
    have hapart : ∀ r ∈ b j, r ∉ b k := by
      intro r hr hrk
      rw [hb.mem_iff] at hr hrk
      exact hj (Option.some.inj (hr.symm.trans hrk))
    have hpj : p ∉ b j := fun hpj => hapart p hpj hp
    rw [HashBuckets.unlink, List.erase_of_not_mem hpj]
    refine (h j).congr ?_ ?_ ?_
    · refine unlink_get_of_ne ht ?_ Slot.head_ne_next
      rcases htwo with rfl | ⟨r, -, rfl⟩
      · exact fun h => hj (Slot.head.inj h)
      · exact Slot.head_ne_next
    · intro r hr
      refine unlink_get_of_ne (t := .next r) ht ?_ fun h => hpj (Slot.next.inj h ▸ hr)
      rcases htwo with rfl | ⟨q, hq, rfl⟩
      · exact Slot.head_ne_next.symm
      · exact fun h => hapart r hr (Slot.next.inj h ▸ hq)
    · intro r hr
      have hrp : r ≠ p := fun h => hpj (h ▸ hr)
      rw [unlink_pprev ht hrp, if_neg]
      intro hnext
      exact hapart r hr ((h k).next_mem hp hnext)

end Rtl8189.Hlist
