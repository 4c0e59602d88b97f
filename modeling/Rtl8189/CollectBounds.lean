import Rtl8189.CollectBss

/-!
# The bounds of the collection

Each step of `collect_bss_info` comes to some elements and uses some bytes of what it finds. The
steps together are safe where all of that is in the buffer.
-/
namespace Rtl8189.CollectBss

open AccessProg AccessTrace AttrWalk BlockModes BufferWalk IeLookup IeSearch

open ConnectSettings (maxIeSz)

namespace SurveyFrame

/-! ## Looking up -/

section LookUp

variable (f : SurveyFrame)

/-- The first element with that id starts at `p`, counted from where the elements start. -/
abbrev First (id p : ℕ) : Prop := f.search.First id p

abbrev elemLen (p : ℕ) : ℕ := f.search.elemLen p

/-- Of each element that the look-up comes to, the header is in the buffer. -/
abbrev Heads (len id : ℕ) : Prop := f.search.Heads len id

variable {f} {id : ℕ} {α : Type} {sizes : Region → ℕ} {k : Ie → Prog Region α} {a : α}

theorem inside_look : (f.getIe id >>= k).Inside sizes ↔ f.Heads (sizes .ies) id ∧
    (∀ p, f.First id p → (k (some (p, f.elemLen p))).Inside sizes) ∧
      ((∀ p, ¬ f.First id p) → (k none).Inside sizes) := Search.inside_look f.small

theorem ret_look : (f.getIe id >>= k).ret = some a ↔
    (∃ p, f.First id p ∧ (k (some (p, f.elemLen p))).ret = some a) ∨
      (∀ p, ¬ f.First id p) ∧ (k none).ret = some a := Search.ret_look f.small

end LookUp

/-! ## Step by step -/

section Steps

variable {f : SurveyFrame} {env : Adapter} {buffer : IeBuffer} {id i : ℕ} {bytes : List UInt8}

/-- The bytes that are used of what is found, behind its header, are in the buffer. -/
def Holds (f : SurveyFrame) (len id : ℕ) (used : ℕ → ℕ) : Prop :=
  ∀ p, f.First id p → used p = 0 ∨ f.ieOffset + p + 2 + used p ≤ len

def ieSize (f : SurveyFrame) (buffer : IeBuffer) : ℕ := size f buffer .ies

theorem le_ieSize (hlen : f.len ≤ maxIeSz) : f.len ≤ f.ieSize buffer := by
  cases buffer
  · exact Nat.le_refl _
  · exact hlen

@[simp] theorem size_ies : size f buffer .ies = f.ieSize buffer := rfl

variable (f) in
def nameUsed (p : ℕ) : ℕ := if f.elemLen p ≤ 32 then f.elemLen p else 0

theorem inside_takeSsid : f.takeSsid.Inside (size f buffer) ↔
    f.Heads (f.ieSize buffer) 0 ∧ f.Holds (f.ieSize buffer) 0 f.nameUsed := by
  refine inside_look.trans (and_congr Iff.rfl ?_)
  refine (and_iff_left fun _ => Prog.inside_giveUp.mpr trivial).trans (forall₂_congr fun p _ => ?_)
  rw [nameUsed]
  by_cases hzero : f.elemLen p = 0
  · simp [hzero]
  · by_cases hlong : 32 < f.elemLen p
    · simp [hzero, hlong, Nat.not_le_of_lt hlong]
    · simp [hzero, hlong, Nat.le_of_not_lt hlong, touchContent, ieSize, size]

theorem ret_takeSsid : f.takeSsid.ret = some bytes ↔
    ∃ p, f.First 0 p ∧ f.elemLen p ≤ 32 ∧ bytes = f.content p (f.elemLen p) := by
  refine ret_look.trans ?_
  rw [or_iff_left fun h => nomatch h.2]
  refine exists_congr fun p => and_congr Iff.rfl ?_
  by_cases hzero : f.elemLen p = 0
  · simp [hzero, content, bytesAt, eq_comm]
  · by_cases hlong : 32 < f.elemLen p
    · simp [hzero, hlong, Nat.not_le_of_lt hlong]
    · simp [hzero, hlong, Nat.le_of_not_lt hlong, touchContent, eq_comm]

variable (f) in
def RatesAt (i p : ℕ) : Prop :=
  f.elemLen p ≤ 16 - i ∧ rtwValidateValue (f.content p (f.elemLen p)) = true

variable (f env) in
/-- A rate that is refused is the last that is read, unless the element is printed. -/
def ratesUsed (i p : ℕ) : ℕ :=
  if f.elemLen p ≤ 16 - i then
    if rtwValidateValue (f.content p (f.elemLen p)) ∨ env.dumps then f.elemLen p
    else validateReads (f.content p (f.elemLen p))
  else 0

theorem validateReads_le (rates : List UInt8) : validateReads rates ≤ rates.length :=
  Nat.min_le_right _ _

theorem inside_absorb {β : Type} {k : Unit → Prog Region β} :
    (absorbSsidIfneed >>= k).Inside (size f buffer) ↔ (k ()).Inside (size f buffer) := by
  have hhead : 24 ≤ size f buffer .frame := f.header
  have hin : absorbSsidIfneed.Inside (size f buffer) := by
    rw [absorbSsidIfneed, Prog.inside_touch_bind, Prog.inside_touch]
    constructor <;> omega
  rw [Prog.inside_bind]
  exact ⟨fun h => h.2 () rfl, fun h => ⟨hin, fun _ _ => h⟩⟩

theorem inside_takeRates : (f.takeRates env id i).Inside (size f buffer) ↔
    f.Heads (f.ieSize buffer) id ∧ f.Holds (f.ieSize buffer) id (f.ratesUsed env i) := by
  refine inside_look.trans (and_congr Iff.rfl ?_)
  refine (and_iff_left fun _ => (Prog.inside_pure _).mpr trivial).trans
    (forall₂_congr fun p _ => ?_)
  have hreads : validateReads (f.content p (f.elemLen p)) ≤ f.elemLen p :=
    (validateReads_le _).trans_eq (length_bytesAt _ _ _)
  have hrates : size f buffer .rates = 16 := rfl
  rw [ratesUsed]
  by_cases hlong : 16 - i < f.elemLen p
  · simp only [if_pos hlong, if_neg (Nat.not_le_of_lt hlong), Prog.inside_giveUp, true_or]
  · simp only [if_neg hlong, if_pos (Nat.le_of_not_lt hlong), touchContent,
      Prog.inside_touch_bind, size_ies]
    by_cases hvalid : rtwValidateValue (f.content p (f.elemLen p)) = true
    · simp only [if_pos hvalid, if_pos (Or.inl hvalid), Prog.inside_touch_bind, Prog.inside_pure,
        size_ies, hrates, and_true]
      exact ⟨fun h => h.2.1, fun h => ⟨by omega, h, by omega⟩⟩
    · have hpos : f.elemLen p ≠ 0 := fun hzero => hvalid (by rw [hzero]; rfl)
      simp only [if_neg hvalid, inside_absorb, Prog.inside_touch_bind, Prog.inside_giveUp,
        size_ies, and_true]
      by_cases hdump : env.dumps = true
      · rw [if_pos hdump, if_pos (.inr hdump)]
        exact ⟨fun h => by omega, fun h => ⟨by omega, by omega⟩⟩
      · rw [if_neg hdump, if_neg fun h => h.elim hvalid hdump]
        exact ⟨And.left, fun h => ⟨h, .inl rfl⟩⟩

theorem ret_takeRates : (f.takeRates env id i).ret = some bytes ↔
    (∃ p, f.First id p ∧ f.RatesAt i p ∧ bytes = f.content p (f.elemLen p)) ∨
      (∀ p, ¬ f.First id p) ∧ bytes = [] := by
  refine ret_look.trans (or_congr (exists_congr fun p => and_congr Iff.rfl ?_) ?_)
  · rw [RatesAt]
    by_cases hlong : 16 - i < f.elemLen p
    · simp [hlong, Nat.not_le_of_lt hlong]
    · by_cases hvalid : rtwValidateValue (f.content p (f.elemLen p)) = true
      · simp [hlong, hvalid, Nat.le_of_not_lt hlong, touchContent, eq_comm]
      · simp [hlong, hvalid, touchContent]
  · simp [eq_comm]

variable (f) in
def FirstP2p (c : ℕ) : Prop := Item f.p2pNext f.P2pMatch 0 c ∧ f.P2pMatch c ∧ c + 5 < f.len

variable (f) in
def P2pStop (p : ℕ) : Prop := p + 5 < f.len → f.P2pMatch p

theorem p2pRound_out {c : ℕ} (h : ¬ c + 5 < f.len) :
    f.p2pIeRound (some c) = ⟨[], .inl none⟩ := if_neg h

theorem p2pRound_in (hlen : f.len ≤ maxIeSz) {c : ℕ} (h : c + 5 < f.len) :
    f.p2pIeRound (some c) =
      ⟨[.bytes c 1, .bytes (c + 2 : ℕ) (if f.mem c = 221 then 4 else 0), .bytes (c + 1 : ℕ) 1],
        if f.P2pMatch c then .inl (some c) else .inr (some (f.p2pNext c))⟩ :=
  (if_pos h).trans (if_neg (by omega))

theorem lt_p2pNext (c : ℕ) : c < f.p2pNext c := by
  rw [p2pNext]
  omega

theorem p2p_stop (hlen : f.len ≤ maxIeSz) {c : ℕ} (h : f.P2pStop c) :
    ∃ r, (f.p2pIeRound (some c)).next = .inl r := by
  by_cases hin : c + 5 < f.len
  · rw [p2pRound_in hlen hin]
    exact ⟨_, if_pos (h hin)⟩
  · rw [p2pRound_out hin]
    exact ⟨_, rfl⟩

theorem p2p_go (hlen : f.len ≤ maxIeSz) {c : ℕ} (h : ¬ f.P2pStop c) :
    (f.p2pIeRound (some c)).next = .inr (some (f.p2pNext c)) := by
  have hin : c + 5 < f.len ∧ ¬ f.P2pMatch c := Classical.not_imp.mp h
  rw [p2pRound_in hlen hin.1]
  exact if_neg hin.2

theorem p2p_item_iff {c : ℕ} : Item f.p2pNext f.P2pStop 0 c ∧ c + 5 < f.len ↔
    Item f.p2pNext f.P2pMatch 0 c ∧ c + 5 < f.len := by
  have hstop : ∀ p, p + 5 < f.len → (f.P2pStop p ↔ f.P2pMatch p) :=
    fun p hp => ⟨fun h => h hp, fun h _ => h⟩
  refine Item.inside_iff (fun p hp => ?_) hstop
  have hnext := f.lt_p2pNext p
  omega

theorem p2p_returns_iff (hlen : f.len ≤ maxIeSz) {c : ℕ} :
    Returns f.p2pIeRound none (some c) ↔ f.FirstP2p c := by
  by_cases hzero : f.len = 0
  · have hnone : Returns f.p2pIeRound none none :=
      returns_iff.mpr ⟨none, .start, if_pos hzero⟩
    refine iff_of_false (fun h => nomatch h.unique hnone) fun h => ?_
    have hin := h.2.2
    omega
  · have hentry : (f.p2pIeRound none).next = .inr (some 0) := if_neg hzero
    rw [chain_returns_iff hentry (fun _ => p2p_stop hlen) (fun _ => p2p_go hlen), FirstP2p]
    constructor
    · rintro ⟨p, hp, hdone⟩
      by_cases hin : p + 5 < f.len
      · rw [p2pRound_in hlen hin] at hdone
        dsimp only at hdone
        split_ifs at hdone with hmatch
        cases hdone
        exact ⟨(p2p_item_iff.mp ⟨hp, hin⟩).1, hmatch, hin⟩
      · rw [p2pRound_out hin] at hdone
        exact nomatch hdone
    · rintro ⟨hc, hmatch, hin⟩
      refine ⟨c, (p2p_item_iff.mpr ⟨hc, hin⟩).1, ?_⟩
      rw [p2pRound_in hlen hin]
      exact if_pos hmatch

theorem inside_p2pIe (hlen : f.len ≤ maxIeSz) : f.p2pIe.Inside (size f buffer) := by
  refine (Prog.inside_walk Region.ies 0).mpr (fun t _ op hop => ?_) _
  have hsize : f.len ≤ f.ieSize buffer := le_ieSize hlen
  rw [size_ies]
  cases t with
  | none => exact nomatch hop
  | some c =>
    by_cases hin : c + 5 < f.len
    · rw [p2pRound_in hlen hin] at hop
      simp only [List.mem_cons, List.not_mem_nil, or_false] at hop
      rcases hop with rfl | rfl | rfl
      · exact fun _ => ⟨by omega, by omega⟩
      · exact fun _ => ⟨by omega, by split <;> omega⟩
      · exact fun _ => ⟨by omega, by omega⟩
    · rw [p2pRound_out hin] at hop
      exact nomatch hop

theorem p2p_result (f : SurveyFrame) (hlen : f.len ≤ maxIeSz) :
    ∃ r, result f.p2pIeRound (f.len + 2) none = some r := by
  refine result_of_measure (fun t => (t.map fun p => f.len - p).getD (f.len + 1))
    (fun t t' _ hnext => ?_) (Nat.lt_succ_self _)
  cases t with
  | none =>
    dsimp only [p2pIeRound] at hnext
    split_ifs at hnext
    cases hnext
    exact Nat.lt_succ_of_le (Nat.sub_le _ _)
  | some c =>
    by_cases hin : c + 5 < f.len
    · rw [p2pRound_in hlen hin] at hnext
      dsimp only at hnext
      split_ifs at hnext
      cases hnext
      have hlt := f.lt_p2pNext c
      dsimp only [Option.map, Option.getD]
      omega
    · rw [p2pRound_out hin] at hnext
      exact nomatch hnext

theorem p2pIe_ret (hlen : f.len ≤ maxIeSz) :
    ∃ r, f.p2pIe.ret = some r ∧ ∀ c, r = some c ↔ f.FirstP2p c := by
  obtain ⟨r, hr⟩ := f.p2p_result hlen
  have hret : Returns f.p2pIeRound none r := ⟨_, hr⟩
  refine ⟨r, hr, fun c => ?_⟩
  rw [← p2p_returns_iff hlen]
  exact ⟨fun h => h ▸ hret, fun h => hret.unique h⟩

variable (f) in
def attrLen (c p : ℕ) : ℕ := attrSize le16 (f.ies.drop c) p % 65536

variable (f) in
def AttrStop (c p : ℕ) : Prop :=
  f.p2pIelen c < p + f.attrLen c p ∨ byteAt (f.ies.drop c) p = 6

variable (f) in
def AttrAt (c p : ℕ) : Prop :=
  Item (fun q => q + f.attrLen c q) (f.AttrStop c) 6 p ∧ p + 3 ≤ f.p2pIelen c

variable (f) in
def Listen (c p : ℕ) : Prop :=
  p + f.attrLen c p ≤ f.p2pIelen c ∧ byteAt (f.ies.drop c) p = 6 ∧ f.attrLen c p ≠ 0

/-- The attributes that the search comes to are in the buffer, and the content of the listen
channel fits into its five bytes. -/
def ListenFits (f : SurveyFrame) (len c : ℕ) : Prop := ∀ p, f.AttrAt c p →
  c + p + 3 ≤ len ∧ (f.Listen c p → contentLen (f.attrLen c p) ≤ 5 ∧
    (contentLen (f.attrLen c p) = 0 ∨ c + p + 3 + contentLen (f.attrLen c p) ≤ len))

theorem AttrAt.six_le {c p : ℕ} (h : f.AttrAt c p) : 6 ≤ p := by
  obtain ⟨h, -⟩ := h
  induction h with
  | first => exact Nat.le_refl 6
  | next _ _ ih => exact ih.trans (Nat.le_add_right _ _)

theorem length_ies (hlen : f.len ≤ maxIeSz) : f.ies.length = maxIeSz := by
  rw [ies, List.length_append, List.length_replicate, List.length_drop]
  have hbody : f.len = f.bytes.length - 24 := rfl
  omega

theorem FirstP2p.opens (hlen : f.len ≤ maxIeSz) {c : ℕ} (h : f.FirstP2p c) :
    Opens (f.ies.drop c) p2pOui := by
  obtain ⟨-, ⟨hid, houi⟩, hin⟩ := h
  have hall := length_ies hlen
  refine ⟨?_, ?_⟩
  · rw [byteAt_drop]
    exact congrArg UInt8.toNat hid
  · rw [← houi, List.drop_drop]
    refine List.ext_getElem ?_ fun i hi hi' => ?_
    · rw [List.length_take, List.length_drop, length_bytesAt]
      omega
    · have hlt : c + 2 + i < f.ies.length := by
        rw [length_bytesAt] at hi'
        omega
      rw [List.getElem_take, List.getElem_drop]
      simp only [bytesAt, List.getElem_map, List.getElem_range, mem]
      rw [List.getD_eq_getElem _ _ hlt]

theorem p2pAttrs_eq (f : SurveyFrame) (c : ℕ) :
    f.p2pAttrs c = attrRound le16 p2pOui (f.ies.drop c) (f.p2pIelen c) 6 false := rfl

theorem attr_entry (hlen : f.len ≤ maxIeSz) {c : ℕ} (h : f.FirstP2p c) :
    (f.p2pAttrs c none).next = if 6 < f.p2pIelen c then .inr (some 6) else .inl none := by
  rw [p2pAttrs_eq, attrRound_entry]
  simp only [h.opens hlen, and_true]

section Attr

variable {c p : ℕ}

theorem attr_out (h : ¬ p + 3 ≤ f.p2pIelen c) : f.p2pAttrs c (some p) = ⟨[], .inl none⟩ := by
  rw [p2pAttrs_eq]
  exact attrRound_out h

theorem attr_unfit (h : p + 3 ≤ f.p2pIelen c) (hfit : f.p2pIelen c < p + f.attrLen c p) :
    f.p2pAttrs c (some p) = ⟨[.bytes p 3], .inl none⟩ := by
  rw [p2pAttrs_eq]
  exact attrRound_unfit h hfit

theorem attr_found (h : p + 3 ≤ f.p2pIelen c) (hfit : ¬ f.p2pIelen c < p + f.attrLen c p)
    (hid : byteAt (f.ies.drop c) p = 6) :
    f.p2pAttrs c (some p) = ⟨[.bytes p 3], .inl (some (p, f.attrLen c p))⟩ := by
  rw [p2pAttrs_eq]
  exact attrRound_found h hfit hid

theorem attr_next (h : p + 3 ≤ f.p2pIelen c) (hfit : ¬ f.p2pIelen c < p + f.attrLen c p)
    (hid : byteAt (f.ies.drop c) p ≠ 6) :
    f.p2pAttrs c (some p) = ⟨[.bytes p 3], .inr (some (p + f.attrLen c p))⟩ := by
  rw [p2pAttrs_eq]
  exact attrRound_next h hfit hid

theorem attr_ops (h : p + 3 ≤ f.p2pIelen c) : (f.p2pAttrs c (some p)).ops = [.bytes p 3] := by
  by_cases hfit : f.p2pIelen c < p + f.attrLen c p
  · rw [attr_unfit h hfit]
  · by_cases hid : byteAt (f.ies.drop c) p = 6
    · rw [attr_found h hfit hid]
    · rw [attr_next h hfit hid]

variable (f) in
def AttrEnd (c p : ℕ) : Prop := p + 3 ≤ f.p2pIelen c → f.AttrStop c p

theorem attr_stop (h : f.AttrEnd c p) : ∃ r, (f.p2pAttrs c (some p)).next = .inl r := by
  by_cases hin : p + 3 ≤ f.p2pIelen c
  · by_cases hfit : f.p2pIelen c < p + f.attrLen c p
    · rw [attr_unfit hin hfit]
      exact ⟨_, rfl⟩
    · rw [attr_found hin hfit ((h hin).resolve_left hfit)]
      exact ⟨_, rfl⟩
  · rw [attr_out hin]
    exact ⟨_, rfl⟩

theorem attr_go (h : ¬ f.AttrEnd c p) :
    (f.p2pAttrs c (some p)).next = .inr (some (p + f.attrLen c p)) := by
  obtain ⟨hin, hgo⟩ := Classical.not_imp.mp h
  obtain ⟨hfit, hid⟩ := not_or.mp hgo
  rw [attr_next hin hfit hid]

theorem attr_item_iff :
    Item (fun q => q + f.attrLen c q) (f.AttrEnd c) 6 p ∧ p + 3 ≤ f.p2pIelen c ↔
      f.AttrAt c p := by
  have hstop : ∀ q, q + 3 ≤ f.p2pIelen c → (f.AttrEnd c q ↔ f.AttrStop c q) :=
    fun q hq => ⟨fun h => h hq, fun h _ => h⟩
  refine Item.inside_iff (fun q hq => ?_) hstop
  omega

theorem attr_head {op : Op} (h : op ∈ (f.p2pAttrs c none).ops) :
    op = .bytes 0 1 ∨ op = .bytes 2 4 := by
  rw [p2pAttrs_eq, attrRound] at h
  split at h
  · cases h
  · rw [ouiOps] at h
    rcases List.mem_cons.mp h with rfl | h
    · exact .inl rfl
    · split at h
      · exact .inr (List.mem_singleton.mp h)
      · cases h

theorem attr_at (hlen : f.len ≤ maxIeSz) (h : f.FirstP2p c)
    (ht : Reaches (f.p2pAttrs c) none (some p)) (hin : p + 3 ≤ f.p2pIelen c) : f.AttrAt c p := by
  have hentry := attr_entry hlen h
  by_cases hlong : 6 < f.p2pIelen c
  · rw [if_pos hlong] at hentry
    obtain hnone | ⟨q, hq, hitem⟩ :=
      (reaches_item_iff hentry (fun _ => attr_stop) fun _ => attr_go).mp ht
    · exact nomatch hnone
    · cases hq
      exact attr_item_iff.mp ⟨hitem, hin⟩
  · rw [if_neg hlong] at hentry
    obtain hnone | ⟨t, hnext, -⟩ := ht.cases_head
    · exact nomatch hnone
    · rw [hentry] at hnext
      exact nomatch hnext

theorem attr_reads_iff (hlen : f.len ≤ maxIeSz) (h : f.FirstP2p c) :
    (∀ t, Reaches (f.p2pAttrs c) none t → ∀ op ∈ (f.p2pAttrs c t).ops,
        (Prog.shift c op).Within (f.ieSize buffer)) ↔
      ∀ p, f.AttrAt c p → c + p + 3 ≤ f.ieSize buffer := by
  have hentry := attr_entry hlen h
  have hin : c + 5 < f.len := h.2.2
  have hsize : f.len ≤ f.ieSize buffer := le_ieSize hlen
  constructor
  · intro hall p hat
    have hlong : 6 < f.p2pIelen c := by
      have hsix := hat.six_le
      have hend := hat.2
      omega
    rw [if_pos hlong] at hentry
    have hreach := (reaches_item_iff hentry (fun _ => attr_stop) fun _ => attr_go).mpr
      (.inr ⟨p, rfl, (attr_item_iff.mpr hat).1⟩)
    have hop := hall _ hreach (.bytes p 3) (by rw [attr_ops hat.2]; exact List.mem_cons_self)
    have hend := (hop (by decide)).2
    omega
  · intro hall t ht op hop
    cases t with
    | none =>
      rcases attr_head hop with rfl | rfl
      · exact fun _ => ⟨by omega, by omega⟩
      · exact fun _ => ⟨by omega, by omega⟩
    | some p =>
      by_cases hend : p + 3 ≤ f.p2pIelen c
      · rw [attr_ops hend] at hop
        obtain rfl := List.mem_singleton.mp hop
        have hfit := hall p (attr_at hlen h ht hend)
        exact fun _ => ⟨by omega, by omega⟩
      · rw [attr_out hend] at hop
        exact nomatch hop

theorem attr_returns_iff (hlen : f.len ≤ maxIeSz) (h : f.FirstP2p c) {m : ℕ} :
    Returns (f.p2pAttrs c) none (some (p, m)) ↔ f.AttrAt c p ∧
      p + f.attrLen c p ≤ f.p2pIelen c ∧ byteAt (f.ies.drop c) p = 6 ∧ m = f.attrLen c p := by
  have hentry := attr_entry hlen h
  by_cases hlong : 6 < f.p2pIelen c
  · rw [if_pos hlong] at hentry
    rw [chain_returns_iff hentry (fun _ => attr_stop) fun _ => attr_go]
    constructor
    · rintro ⟨q, hq, hdone⟩
      by_cases hin : q + 3 ≤ f.p2pIelen c
      · by_cases hfit : f.p2pIelen c < q + f.attrLen c q
        · rw [attr_unfit hin hfit] at hdone
          exact nomatch hdone
        · by_cases hid : byteAt (f.ies.drop c) q = 6
          · rw [attr_found hin hfit hid] at hdone
            cases hdone
            exact ⟨attr_item_iff.mp ⟨hq, hin⟩, Nat.le_of_not_lt hfit, hid, rfl⟩
          · rw [attr_next hin hfit hid] at hdone
            exact nomatch hdone
      · rw [attr_out hin] at hdone
        exact nomatch hdone
    · rintro ⟨hat, hfit, hid, rfl⟩
      refine ⟨p, (attr_item_iff.mpr hat).1, ?_⟩
      rw [attr_found hat.2 (Nat.not_lt_of_le hfit) hid]
  · rw [if_neg hlong] at hentry
    have hnone : Returns (f.p2pAttrs c) none none := returns_iff.mpr ⟨none, .start, hentry⟩
    refine iff_of_false (fun hret => nomatch hret.unique hnone) fun hat => ?_
    have hsix := hat.1.six_le
    have hin := hat.1.2
    omega

theorem inside_listenChannel (hlen : f.len ≤ maxIeSz) (h : f.FirstP2p c) :
    (∀ fuel, (f.listenChannel fuel c).Inside (size f buffer)) ↔
      f.ListenFits (f.ieSize buffer) c := by
  refine (Prog.inside_walk_bind Region.ies c).trans ?_
  rw [size_ies, attr_reads_iff hlen h]
  constructor
  · rintro ⟨hheads, hret⟩ p hat
    refine ⟨hheads p hat, fun ⟨hfit, hid, hsome⟩ => ?_⟩
    have hin := hret _ ((attr_returns_iff hlen h).mpr ⟨hat, hfit, hid, rfl⟩)
    simp only [if_neg hsome, Prog.inside_touch_bind, Prog.inside_pure, size_ies] at hin
    have hroom : size f buffer .listenCh = 5 := rfl
    omega
  · intro hfits
    refine ⟨fun p hat => (hfits p hat).1, fun r hr => ?_⟩
    rcases r with - | ⟨p, m⟩
    · exact (Prog.inside_pure _).mpr trivial
    · obtain ⟨hat, hfit, hid, rfl⟩ := (attr_returns_iff hlen h).mp hr
      by_cases hzero : f.attrLen c p = 0
      · simp only [if_pos hzero, Prog.inside_pure]
      · obtain ⟨hroom, hin⟩ := (hfits p hat).2 ⟨hfit, hid, hzero⟩
        simp only [if_neg hzero, Prog.inside_touch_bind, Prog.inside_pure, size_ies, and_true]
        exact ⟨hin, .inr (by rw [Nat.zero_add]; exact hroom)⟩

end Attr

theorem inside_probereqChannel (hlen : f.len ≤ maxIeSz) :
    (∀ fuel, (f.probereqChannel env fuel).Inside (size f buffer)) ↔
      ∀ c, f.FirstP2p c → f.ListenFits (f.ieSize buffer) c := by
  obtain ⟨r, hr, hfirst⟩ := p2pIe_ret hlen
  refine Prog.inside_bind_forall.trans ((and_iff_right (inside_p2pIe hlen)).trans ?_)
  rw [hr]
  constructor
  · intro h c hc
    exact (inside_listenChannel hlen hc).mp (h _ (congrArg some ((hfirst c).mpr hc)))
  · rintro h _ heq
    obtain rfl := Option.some.inj heq
    cases r with
    | none => exact fun _ => (Prog.inside_pure _).mpr trivial
    | some c =>
      have hc := (hfirst c).mp rfl
      exact (inside_listenChannel hlen hc).mpr (h c hc)

theorem inside_collectProbereq (hlen : f.len ≤ maxIeSz) (bss : Bss) :
    (∀ fuel, (f.collectProbereq env fuel bss).Inside (size f buffer)) ↔
      ∀ c, f.FirstP2p c → f.ListenFits (f.ieSize buffer) c := by
  have hchannel : (∀ fuel, (f.probereqChannel env fuel).Inside (size f buffer)) ↔ _ :=
    inside_probereqChannel hlen
  rw [← hchannel]
  have hhead : 24 ≤ size f buffer .frame := f.header
  refine forall_congr' fun fuel => Prog.inside_bind_of fun _ => ?_
  simp only [Prog.inside_touch_bind, Prog.inside_pure, and_true]
  omega

structure Kept (bss b : Bss) : Prop where
  ielength : b.ielength = bss.ielength
  ssid : b.ssid = bss.ssid
  rates : b.supportedRates = bss.supportedRates

theorem kept_collectProbereq {fuel : ℕ} {bss b : Bss}
    (h : (f.collectProbereq env fuel bss).ret = some b) : Kept bss b := by
  rw [collectProbereq, Prog.ret_bind] at h
  obtain ⟨_, -, hb⟩ := Option.bind_eq_some_iff.mp h
  cases hb
  exact ⟨rfl, rfl, rfl⟩

theorem kept_collectOther {bss b : Bss} (h : (f.collectOther env bss).ret = some b) :
    Kept bss b := by
  rw [collectOther] at h
  split at h
  · exact nomatch h
  · simp only [Prog.ret_bind, Prog.ret_touch, Option.bind_some] at h
    obtain ⟨ds, -, h⟩ := Option.bind_eq_some_iff.mp h
    obtain ⟨mode, -, h⟩ := Option.bind_eq_some_iff.mp h
    obtain ⟨c, -, h⟩ := Option.bind_eq_some_iff.mp h
    cases h
    exact ⟨rfl, rfl, rfl⟩

theorem inside_dsConfig : (f.dsConfig env).Inside (size f buffer) ↔
    f.Heads (f.ieSize buffer) 3 ∧ f.Holds (f.ieSize buffer) 3 (fun _ => 1) ∧
      ((∀ p, ¬ f.First 3 p) →
        f.Heads (f.ieSize buffer) 61 ∧ f.Holds (f.ieSize buffer) 61 fun _ => 1) := by
  refine inside_look.trans (and_congr Iff.rfl (and_congr ?_ (imp_congr_right fun _ => ?_)))
  · refine forall₂_congr fun p _ => ?_
    simp only [touchContent, Prog.inside_touch_bind, Prog.inside_pure, size_ies, and_true]
  · refine inside_look.trans (and_congr Iff.rfl ?_)
    refine (and_iff_left fun _ => (Prog.inside_pure _).mpr trivial).trans ?_
    refine forall₂_congr fun p _ => ?_
    simp only [touchContent, Prog.inside_touch_bind, Prog.inside_pure, size_ies, and_true]

theorem dsConfig_ret : ∃ ds, (f.dsConfig env).ret = some ds := by
  by_cases h : ∃ p, f.First 3 p
  · obtain ⟨p, hp⟩ := h
    exact ⟨_, ret_look.mpr (.inl ⟨p, hp, rfl⟩)⟩
  · have hno := not_exists.mp h
    by_cases h' : ∃ p, f.First 61 p
    · obtain ⟨p, hp⟩ := h'
      exact ⟨_, ret_look.mpr (.inr ⟨hno, ret_look.mpr (.inl ⟨p, hp, rfl⟩)⟩)⟩
    · exact ⟨_, ret_look.mpr (.inr ⟨hno, ret_look.mpr (.inr ⟨not_exists.mp h', rfl⟩)⟩)⟩

variable (f) in
def MeshOk : Prop := (∀ p, ¬ f.First 114 p) ∧ (∀ p, ¬ f.First 113 p) ∨
  (∃ p, f.First 114 p ∧ f.elemLen p ≤ 32) ∧ ∃ q, f.First 113 q ∧ f.elemLen q = 7

theorem inside_checkMesh {meshConf : Ie} {p n : ℕ} :
    (f.checkMesh (some (p, n)) meshConf).Inside (size f buffer) ↔
      (n ≤ 32 → n = 0 ∨ f.ieOffset + p + 2 + n ≤ f.ieSize buffer) := by
  have hroom : size f buffer .meshId = 32 := rfl
  rw [checkMesh]
  by_cases hlong : 32 < n
  · simp only [if_pos hlong, Prog.inside_giveUp, true_iff]
    exact fun h => absurd h (Nat.not_le_of_lt hlong)
  · simp only [if_neg hlong, touchContent, Prog.inside_touch_bind, size_ies, hroom]
    refine ⟨fun h _ => h.1, fun h => ⟨h (Nat.le_of_not_lt hlong), by omega, ?_⟩⟩
    split
    · exact (Prog.inside_pure _).mpr trivial
    · exact Prog.inside_giveUp.mpr trivial

theorem checkMesh_ret {meshConf : Ie} {p n : ℕ} :
    (∃ m, (f.checkMesh (some (p, n)) meshConf).ret = some m) ↔
      n ≤ 32 ∧ meshConf.map Prod.snd = some 7 := by
  rw [checkMesh]
  by_cases hlong : 32 < n
  · simp only [if_pos hlong, Prog.ret_giveUp, Nat.not_le_of_lt hlong, false_and, iff_false]
    exact fun h => nomatch h
  · simp only [if_neg hlong, Prog.ret_bind, touchContent, Prog.ret_touch, Option.bind_some,
      Nat.le_of_not_lt hlong, true_and]
    split
    · next hconf => exact iff_of_true ⟨_, rfl⟩ hconf
    · next hconf => exact iff_of_false (fun h => nomatch h) hconf

theorem inside_takeMesh : f.takeMesh.Inside (size f buffer) ↔
    f.Heads (f.ieSize buffer) 114 ∧ f.Heads (f.ieSize buffer) 113 ∧
      f.Holds (f.ieSize buffer) 114 f.nameUsed := by
  simp only [takeMesh, Prog.inside_bind, getIe, Search.inside_lookUp f.small,
    Search.ret_lookUp f.small, Option.some.injEq, forall_eq', size_ies]
  refine and_congr Iff.rfl (and_congr Iff.rfl ?_)
  cases hid : f.search.ieAt 114 with
  | none =>
    have hno := (Search.ieAt_none f.small).mp hid
    refine iff_of_true ?_ fun p hp => absurd hp (hno p)
    dsimp only [checkMesh]
    split
    · exact (Prog.inside_pure _).mpr trivial
    · exact Prog.inside_giveUp.mpr trivial
  | some x =>
    obtain ⟨hx, hn⟩ := (Search.ieAt_some f.small).mp hid
    refine inside_checkMesh.trans ?_
    rw [hn]
    constructor
    · intro h p hp
      obtain rfl := hx.unique hp
      rw [nameUsed]
      split
      · next hle => exact h hle
      · exact .inl rfl
    · intro h hle
      have hin := h _ hx
      rw [nameUsed, if_pos hle] at hin
      exact hin

theorem takeMesh_ret : (∃ m, f.takeMesh.ret = some m) ↔ f.MeshOk := by
  simp only [takeMesh, Prog.ret_bind, getIe, Search.ret_lookUp f.small, Option.bind_some]
  rw [MeshOk, ← Search.ieAt_none f.small, ← Search.ieAt_none f.small]
  cases hid : f.search.ieAt 114 with
  | none =>
    have hno := (Search.ieAt_none f.small).mp hid
    rw [or_iff_left fun h => h.1.elim fun p hp => hno p hp.1]
    dsimp only [checkMesh]
    split
    · next hconf => exact iff_of_true ⟨_, rfl⟩ ⟨rfl, hconf⟩
    · next hconf => exact iff_of_false (fun h => nomatch h) fun h => hconf h.2
  | some x =>
    obtain ⟨hx, hn⟩ := (Search.ieAt_some f.small).mp hid
    rw [or_iff_right fun h => nomatch h.1]
    refine checkMesh_ret.trans (and_congr ?_ ?_)
    · rw [hn]
      exact ⟨fun h => ⟨_, hx, h⟩, fun ⟨p, hp, h⟩ => hx.unique hp ▸ h⟩
    · constructor
      · intro h
        obtain ⟨y, hy, hseven⟩ := Option.map_eq_some_iff.mp h
        obtain ⟨hq, hm⟩ := (Search.ieAt_some f.small).mp hy
        exact ⟨_, hq, hm.symm.trans hseven⟩
      · rintro ⟨q, hq, hseven⟩
        rw [hq.ieAt f.small, ← hseven]
        rfl

variable (f) in
def htUsed (p : ℕ) : ℕ := if f.elemLen p = 0 then 0 else 2

theorem inside_htIntolerant : f.htIntolerant.Inside (size f buffer) ↔
    f.Heads (f.ieSize buffer) 45 ∧ f.Holds (f.ieSize buffer) 45 f.htUsed := by
  refine inside_look.trans (and_congr Iff.rfl ?_)
  refine (and_iff_left fun _ => (Prog.inside_pure _).mpr trivial).trans ?_
  refine forall₂_congr fun p _ => ?_
  rw [htUsed]
  by_cases hzero : f.elemLen p = 0
  · simp only [if_pos hzero, Prog.inside_pure, true_or]
  · simp only [if_neg hzero, touchContent, Prog.inside_touch_bind, Prog.inside_pure, size_ies,
      and_true]

theorem inside_takeMode : f.takeMode.Inside (size f buffer) ↔
    (f.capability % 4 = 0 → f.Heads (f.ieSize buffer) 114 ∧ f.Heads (f.ieSize buffer) 113 ∧
      f.Holds (f.ieSize buffer) 114 f.nameUsed) := by
  have hhead : 24 ≤ size f buffer .frame := f.header
  have hcases : f.capability % 4 < 4 := Nat.mod_lt _ (by decide)
  rw [takeMode]
  generalize f.capability % 4 = bits at hcases
  obtain rfl | rfl | rfl | rfl : bits = 0 ∨ bits = 1 ∨ bits = 2 ∨ bits = 3 := by omega
  · rw [← inside_takeMesh]
    refine (Prog.inside_bind_of fun m => ?_).trans ⟨fun h _ => h, fun h => h rfl⟩
    simp only [Prog.inside_touch_bind, Prog.inside_pure, and_true]
    omega
  · refine iff_of_true ?_ (fun h => absurd h (by decide))
    simp only [Prog.inside_touch_bind, Prog.inside_pure, and_true]
    omega
  · refine iff_of_true ?_ (fun h => absurd h (by decide))
    simp only [Prog.inside_touch_bind, Prog.inside_pure, and_true]
    omega
  · exact iff_of_true ((Prog.inside_pure _).mpr trivial) (fun h => absurd h (by decide))

theorem takeMode_ret : (∃ m, f.takeMode.ret = some m) ↔ (f.capability % 4 = 0 → f.MeshOk) := by
  have hcases : f.capability % 4 < 4 := Nat.mod_lt _ (by decide)
  rw [takeMode]
  generalize f.capability % 4 = bits at hcases
  match bits with
  | 0 =>
    rw [← takeMesh_ret]
    simp only [Prog.ret_bind, Prog.ret_touch, Option.bind_some, Prog.ret_pure]
    constructor
    · rintro ⟨m, hm⟩ -
      obtain ⟨m', hm', -⟩ := Option.bind_eq_some_iff.mp hm
      exact ⟨m', hm'⟩
    · intro h
      obtain ⟨m, hm⟩ := h trivial
      exact ⟨_, Option.bind_eq_some_iff.mpr ⟨m, hm, rfl⟩⟩
  | 1 => exact iff_of_true ⟨_, rfl⟩ nofun
  | 2 => exact iff_of_true ⟨_, rfl⟩ nofun
  | 3 => exact iff_of_true ⟨_, rfl⟩ nofun

/-- What `collect_bss_info` looks up and uses of a frame that is no probe request. -/
structure OtherFits (f : SurveyFrame) (env : Adapter) (len : ℕ) : Prop where
  dsset : f.Heads len 3 ∧ f.Holds len 3 fun _ => 1
  htInfo : (∀ p, ¬ f.First 3 p) → f.Heads len 61 ∧ f.Holds len 61 fun _ => 1
  mesh : f.capability % 4 = 0 → f.Heads len 114 ∧ f.Heads len 113 ∧ f.Holds len 114 f.nameUsed
  htCaps : env.wifiSpec ∧ ¬ env.bwmodeUpdated → (f.capability % 4 = 0 → f.MeshOk) →
    f.Heads len 45 ∧ f.Holds len 45 f.htUsed

theorem inside_coexistence : (f.coexistence env).Inside (size f buffer) ↔
    (env.wifiSpec ∧ ¬ env.bwmodeUpdated →
      f.Heads (f.ieSize buffer) 45 ∧ f.Holds (f.ieSize buffer) 45 f.htUsed) := by
  rw [coexistence]
  split
  · next h => exact inside_htIntolerant.trans ⟨fun hin _ => hin, fun hin => hin h⟩
  · next h => exact iff_of_true ((Prog.inside_pure _).mpr trivial) fun hon => absurd hon h

theorem inside_collectOther (hlen : f.len ≤ maxIeSz) (bss : Bss) :
    (f.collectOther env bss).Inside (size f buffer) ↔
      (12 ≤ f.len → OtherFits f env (f.ieSize buffer)) := by
  have hsize : f.len ≤ f.ieSize buffer := le_ieSize hlen
  rw [collectOther]
  split
  · next hshort =>
    exact iff_of_true (Prog.inside_giveUp.mpr trivial) fun h => absurd h (Nat.not_le_of_lt hshort)
  · next hlong =>
    obtain ⟨ds, hds⟩ : ∃ ds, (f.dsConfig env).ret = some ds := dsConfig_ret
    refine (Prog.inside_bind _ _).trans ?_
    rw [inside_dsConfig, hds]
    simp only [Option.some.injEq, forall_eq', Prog.inside_touch_bind, size_ies]
    rw [Prog.inside_bind f.takeMode, inside_takeMode]
    constructor
    · rintro ⟨⟨hheads, hholds, hht⟩, -, -, hmesh, hco⟩ -
      refine ⟨⟨hheads, hholds⟩, hht, hmesh, fun hon hok => ?_⟩
      obtain ⟨m, hm⟩ := takeMode_ret.mpr hok
      exact inside_coexistence.mp ((Prog.inside_bind _ _).mp (hco m hm)).1 hon
    · intro h
      have h := h (Nat.le_of_not_lt hlong)
      refine ⟨⟨h.dsset.1, h.dsset.2, h.htInfo⟩, by omega, by omega, h.mesh, fun m hm => ?_⟩
      refine (Prog.inside_bind_of fun _ => (Prog.inside_pure _).mpr trivial).mpr ?_
      exact inside_coexistence.mpr fun hon => h.htCaps hon (takeMode_ret.mp ⟨m, hm⟩)

/-! ## The whole function -/

variable (f) in
def Named : Prop := ∃ p, f.First 0 p ∧ f.elemLen p ≤ 32

variable (f) in
/-- The rates of the element, none where it is missing, are taken behind the `i` that are
there. -/
def RatesTaken (id i : ℕ) (rates : List UInt8) : Prop :=
  (∃ p, f.First id p ∧ f.RatesAt i p ∧ rates = f.content p (f.elemLen p)) ∨
    (∀ p, ¬ f.First id p) ∧ rates = []

/-- What the look-ups come to is in the buffer, and what is used of what they find. -/
structure Covered (f : SurveyFrame) (env : Adapter) (len : ℕ) : Prop where
  ssid : f.Heads len 0 ∧ f.Holds len 0 f.nameUsed
  rates : f.Named → f.Heads len 1 ∧ f.Holds len 1 (f.ratesUsed env 0)
  extRates : f.Named → ∀ rates, f.RatesTaken 1 0 rates →
    f.Heads len 50 ∧ f.Holds len 50 (f.ratesUsed env rates.length)
  probereq : f.Named → ∀ rates, f.RatesTaken 1 0 rates →
    ∀ ext, f.RatesTaken 50 rates.length ext → f.subtype = wifiProbereq →
      ∀ c, f.FirstP2p c → f.ListenFits len c
  other : f.Named → ∀ rates, f.RatesTaken 1 0 rates →
    ∀ ext, f.RatesTaken 50 rates.length ext → f.subtype ≠ wifiProbereq →
      12 ≤ f.len → OtherFits f env len

variable (f) in
def Contents (id : ℕ) (bytes : List UInt8) : Prop :=
  (∃ p, f.First id p ∧ bytes = f.content p (f.elemLen p)) ∨ (∀ p, ¬ f.First id p) ∧ bytes = []

structure Collected (f : SurveyFrame) (bss : Bss) : Prop where
  ielength : bss.ielength = f.len
  fits : f.len ≤ maxIeSz
  ssidLength : bss.ssid.length ≤ 32
  ssid : ∃ p, f.First 0 p ∧ bss.ssid = f.content p (f.elemLen p)
  rates : ∃ rates ext, f.Contents 1 rates ∧ f.Contents 50 ext ∧ (rates ++ ext).length ≤ 16 ∧
    bss.supportedRates = rates ++ ext ++ List.replicate (16 - (rates ++ ext).length) 0

variable (f env buffer) in
/-- Nothing outside is read or written, and the network that is returned holds what it should. -/
def Safe : Prop := (∀ fuel, (f.collect env fuel).Inside (size f buffer)) ∧
  ∀ fuel bss, (f.collect env fuel).ret = some bss → Collected f bss

theorem kept_collectRest {fuel : ℕ} {bss b : Bss}
    (h : (f.collectRest env fuel bss).ret = some b) : Kept bss b := by
  rw [collectRest] at h
  split at h
  · exact kept_collectProbereq h
  · exact kept_collectOther h

theorem RatesTaken.contents (h : f.RatesTaken id i bytes) : f.Contents id bytes := by
  rcases h with ⟨p, hp, -, hbytes⟩ | hno
  · exact .inl ⟨p, hp, hbytes⟩
  · exact .inr hno

theorem RatesTaken.length_le (h : f.RatesTaken id i bytes) : bytes.length ≤ 16 - i := by
  rcases h with ⟨p, -, hat, rfl⟩ | ⟨-, rfl⟩
  · rw [content, length_bytesAt]
    exact hat.1
  · exact Nat.zero_le _

theorem rates_stored {rates ext : List UInt8} (h : (rates ++ ext).length ≤ 16) :
    putBytes (putBytes (List.replicate 16 0) 0 rates) rates.length ext =
      rates ++ ext ++ List.replicate (16 - (rates ++ ext).length) 0 := by
  rw [List.length_append] at h ⊢
  have hfirst : putBytes (List.replicate 16 0) 0 rates =
      rates ++ List.replicate (16 - rates.length) 0 := by
    rw [putBytes, List.take_zero, List.nil_append, Nat.zero_add, List.drop_replicate]
  rw [hfirst, putBytes, List.take_left, List.drop_append, List.drop_eq_nil_of_le (by omega),
    List.nil_append, List.drop_replicate]
  congr 2
  omega

theorem collected (f : SurveyFrame) (env : Adapter) {fuel : ℕ} {bss : Bss}
    (h : (f.collect env fuel).ret = some bss) : Collected f bss := by
  rw [collect] at h
  split at h
  · exact nomatch h
  · next hlen =>
    simp only [Prog.ret_bind, Prog.ret_touch, Option.bind_some] at h
    obtain ⟨ssid, hssid, h⟩ := Option.bind_eq_some_iff.mp h
    obtain ⟨rates, hrates, h⟩ := Option.bind_eq_some_iff.mp h
    obtain ⟨ext, hext, h⟩ := Option.bind_eq_some_iff.mp h
    obtain ⟨p, hp, hlong, rfl⟩ := ret_takeSsid.mp hssid
    have htaken : f.RatesTaken 1 0 rates := ret_takeRates.mp hrates
    have hmore : f.RatesTaken 50 rates.length ext := ret_takeRates.mp hext
    have hkept := kept_collectRest h
    have hlen' : (rates ++ ext).length ≤ 16 := by
      have hfirst := htaken.length_le
      have hsecond := hmore.length_le
      rw [List.length_append]
      omega
    refine ⟨hkept.ielength, Nat.le_of_not_lt hlen, ?_, ⟨p, hp, hkept.ssid⟩, rates, ext,
      htaken.contents, hmore.contents, hlen', hkept.rates.trans (rates_stored hlen')⟩
    rw [hkept.ssid]
    exact (length_bytesAt _ _ _).trans_le hlong

theorem inside_collectRest (hlen : f.len ≤ maxIeSz) (bss : Bss) :
    (∀ fuel, (f.collectRest env fuel bss).Inside (size f buffer)) ↔
      (f.subtype = wifiProbereq → ∀ c, f.FirstP2p c → f.ListenFits (f.ieSize buffer) c) ∧
        (f.subtype ≠ wifiProbereq → 12 ≤ f.len → OtherFits f env (f.ieSize buffer)) := by
  by_cases hreq : f.subtype = wifiProbereq
  · simp only [collectRest, if_pos hreq, inside_collectProbereq hlen]
    exact ⟨fun h => ⟨fun _ => h, fun hne => absurd hreq hne⟩, fun h => h.1 hreq⟩
  · simp only [collectRest, if_neg hreq, inside_collectOther hlen, forall_const]
    exact ⟨fun h => ⟨fun heq => absurd heq hreq, fun _ => h⟩, fun h => h.2 hreq⟩

theorem inside_collect_iff (f : SurveyFrame) (env : Adapter) (buffer : IeBuffer) :
    (∀ fuel, (f.collect env fuel).Inside (size f buffer)) ↔
      (f.len ≤ maxIeSz → Covered f env (f.ieSize buffer)) := by
  by_cases hlen : f.len ≤ maxIeSz
  · have hframe : 24 + f.len ≤ size f buffer .frame := by
      have hhead := f.header
      show 24 + (f.bytes.length - 24) ≤ f.bytes.length
      omega
    have hstore : f.len ≤ size f buffer .iesStore := hlen
    have hpaths : (if env.ofdm then (env.numTotalRfPath : ℕ) else 0) ≤ size f buffer .rxSnr := by
      have hfour : (env.numTotalRfPath : ℕ) ≤ 4 := Nat.le_of_lt_succ env.numTotalRfPath.isLt
      split
      · exact hfour
      · exact Nat.zero_le _
    simp only [collect, if_neg (Nat.not_lt_of_le hlen), Prog.inside_touch_bind, forall_and,
      forall_const, Nat.zero_add]
    have hssid : (∃ ssid, f.takeSsid.ret = some ssid) ↔ f.Named := by
      simp only [ret_takeSsid]
      exact ⟨fun ⟨_, p, hp, hle, _⟩ => ⟨p, hp, hle⟩, fun ⟨p, hp, hle⟩ => ⟨_, p, hp, hle, rfl⟩⟩
    have hrates : ∀ i id bytes, (f.takeRates env id i).ret = some bytes ↔
        f.RatesTaken id i bytes := fun _ _ _ => ret_takeRates
    simp only [Prog.inside_bind_forall, inside_takeSsid, inside_takeRates, inside_collectRest hlen,
      hrates]
    constructor
    · rintro ⟨-, -, -, -, hs, hrest⟩ -
      refine ⟨hs, fun hn => ?_, fun hn r hr => ?_, fun hn r hr e he => ?_, fun hn r hr e he => ?_⟩
      all_goals obtain ⟨ssid, hname⟩ := hssid.mpr hn
      · exact (hrest ssid hname).1
      · exact ((hrest ssid hname).2 r hr).1
      · exact (((hrest ssid hname).2 r hr).2 e he).1
      · exact (((hrest ssid hname).2 r hr).2 e he).2
    · intro h
      have h := h hlen
      refine ⟨.inr (by omega), .inr hframe, .inr hstore, .inr hpaths, h.ssid, fun ssid hname => ?_⟩
      have hn := hssid.mp ⟨ssid, hname⟩
      exact ⟨h.rates hn, fun r hr => ⟨h.extRates hn r hr, fun e he =>
        ⟨h.probereq hn r hr e he, h.other hn r hr e he⟩⟩⟩
  · refine iff_of_true (fun fuel => ?_) fun h => absurd h hlen
    rw [collect, if_pos (Nat.lt_of_not_le hlen)]
    exact Prog.inside_giveUp.mpr trivial

end Steps

end SurveyFrame

open SurveyFrame

/-- The collection is safe if and only if the body is longer than what is taken at all, or every
element header that a look-up comes to, and every byte that is used of what it finds, lies in
the buffer, and the listen channel of a probe request fits into five bytes. -/
theorem safe_iff (f : SurveyFrame) (env : Adapter) (buffer : IeBuffer) :
    Safe f env buffer ↔ (f.len ≤ maxIeSz → Covered f env (f.ieSize buffer)) :=
  (and_iff_left fun _ _ => f.collected env).trans (inside_collect_iff f env buffer)

/-- A probe request with an SSID without bytes, one rate and a P2P element, of which the listen
channel has six bytes. -/
def probeRequest : SurveyFrame where
  bytes := [0x40, 0] ++ List.replicate 22 0 ++
    [0, 0, 1, 1, 0x82, 221, 13, 0x50, 0x6f, 0x9a, 0x09, 6, 6, 0, 0x58, 0x58, 4, 81, 6, 0]
  header := by decide
  fits := by decide

def someAdapter : Adapter := ⟨false, false, 1, 1, 1, false, false⟩

theorem listen_channel_spills :
    ((probeRequest.collect someAdapter 2).ret.map (·.dsConfig) = some 6) ∧
      ∀ buffer, ¬ Safe probeRequest someAdapter buffer := by
  refine ⟨by decide +kernel, fun buffer h => ?_⟩
  have hin := h.1 2
  cases buffer
  · exact absurd hin (by decide +kernel)
  · exact absurd hin (by decide +kernel)

end Rtl8189.CollectBss
