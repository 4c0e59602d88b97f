import Rtl8189.AccessTrace
import Rtl8189.SdioRecv

/-!
# Reading a receive buffer

The loop of the receive tasklet over one buffer, with the stretches of the buffer that it
reads: at each packet start the descriptor, and the packet when that ends inside. The loop
goes on as long as the next start lies in the buffer.
-/
namespace Rtl8189.AggregateBounds

open AccessTrace SdioRecv

structure Round where
  start : ℕ
  ops : List Op

def advance (rcr : Rcr) (d : RxDesc) : ℕ := rnd128 (pktStart rcr d + d.pktLen)

/-- The loop does not stop at the packet with this descriptor. -/
def goesOn (rcr : Rcr) (mem : Memory) (n transferLen : ℕ) (d : RxDesc) : Bool :=
  ¬ (rcr.acrc32 = false ∧ d.crcErr) ∧ ¬ (d.pktLen = 0 ∨ transferLen < pktStart rcr d + d.pktLen) ∧
    ((d.crcErr || d.icvErr) ∨ mem.skb n)

def copied (rcr : Rcr) (start : ℕ) (d : RxDesc) : List Op :=
  if d.crcErr || d.icvErr then [] else [.bytes (start + pktStart rcr d : ℕ) d.pktLen]

/-- The inner loop of `rtl8188es_recv_tasklet`, with what stands in memory at `ptr`, and the
passes that it makes, or none when it is not done with so much fuel. -/
def recvRounds (rcr : Rcr) (mem : Memory) :
    ℕ → ℕ → ℕ → ℕ → List UInt8 → Option (List Round)
  | 0, _, _, _, _ => none
  | fuel + 1, n, start, transferLen, ptr =>
    if mem.frame n = false then some []
    else
      let d := queryRxDescStatus ptr
      let desc := Op.bytes start 24
      if goesOn rcr mem n transferLen d then
        let round := ⟨start, desc :: copied rcr start d⟩
        if advance rcr d < transferLen then
          (recvRounds rcr mem fuel (n + 1) (start + advance rcr d) (transferLen - advance rcr d)
            (ptr.drop (advance rcr d))).map (round :: ·)
        else some [round]
      else some [⟨start, [desc]⟩]

/-- The loop comes to this packet start of the buffer as its `n`th. -/
inductive Comes (rcr : Rcr) (mem : Memory) (len : ℕ) (buf : List UInt8) : ℕ → ℕ → Prop
  | first : mem.frame 0 = true → Comes rcr mem len buf 0 0
  | next {n start : ℕ} : Comes rcr mem len buf n start →
      goesOn rcr mem n (len - start) (queryRxDescStatus (buf.drop start)) = true →
      start + advance rcr (queryRxDescStatus (buf.drop start)) < len →
      mem.frame (n + 1) = true →
      Comes rcr mem len buf (n + 1) (start + advance rcr (queryRxDescStatus (buf.drop start)))

variable {rcr : Rcr} {mem : Memory}

theorem rnd128_spec (sz : ℕ) : sz ≤ rnd128 sz ∧ rnd128 sz % 128 = 0 := by
  unfold rnd128
  by_cases h : sz % 128 = 0
  · rw [if_neg (not_not.mpr h)]
    omega
  · rw [if_pos h]
    omega

theorem pktStart_ge (rcr : Rcr) (d : RxDesc) : 24 ≤ pktStart rcr d := by
  unfold pktStart
  omega

theorem advance_spec (rcr : Rcr) (d : RxDesc) :
    24 ≤ advance rcr d ∧ pktStart rcr d + d.pktLen ≤ advance rcr d ∧ advance rcr d % 128 = 0 := by
  have hrnd := rnd128_spec (pktStart rcr d + d.pktLen)
  have hge := pktStart_ge rcr d
  unfold advance
  omega

theorem goesOn_fits {n transferLen : ℕ} {d : RxDesc} (h : goesOn rcr mem n transferLen d = true) :
    pktStart rcr d + d.pktLen ≤ transferLen :=
  Nat.le_of_not_lt fun hlt => (of_decide_eq_true h).2.1 (.inr hlt)

/-! ## Progress -/

/-- The loop ends, and each pass starts behind the descriptor of the one before. -/
theorem recvRounds_terminates (rcr : Rcr) (mem : Memory) {fuel : ℕ} (n start transferLen : ℕ)
    (ptr : List UInt8)
    (hfuel : transferLen < 24 * fuel) :
    ∃ rounds, recvRounds rcr mem fuel n start transferLen ptr = some rounds ∧
      (∀ r ∈ rounds, start ≤ r.start) ∧
      rounds.Pairwise (fun a b => a.start + 24 ≤ b.start) := by
  induction fuel generalizing n start transferLen ptr with
  | zero => exact absurd hfuel (Nat.not_lt_zero _)
  | succ fuel ih =>
    obtain ⟨hpos, -⟩ := advance_spec rcr (queryRxDescStatus ptr)
    have hsingle (ops : List Op) :
        (∀ r ∈ [Round.mk start ops], start ≤ r.start) ∧
          [Round.mk start ops].Pairwise (fun a b => a.start + 24 ≤ b.start) := by
      refine ⟨fun r hr => ?_, List.pairwise_singleton _ _⟩
      rw [List.mem_singleton.mp hr]
    unfold recvRounds
    split
    · exact ⟨[], rfl, nofun, List.Pairwise.nil⟩
    · dsimp only
      split
      · split
        · obtain ⟨rounds, hrounds, hge, hpair⟩ := ih (n + 1)
            (start + advance rcr (queryRxDescStatus ptr))
            (transferLen - advance rcr (queryRxDescStatus ptr))
            (ptr.drop (advance rcr (queryRxDescStatus ptr))) (by omega)
          refine ⟨_, by rw [hrounds]; rfl, ?_, List.pairwise_cons.mpr ⟨?_, hpair⟩⟩
          · intro r hr
            obtain rfl | hr := List.mem_cons.mp hr
            · exact Nat.le_refl _
            · exact Nat.le_trans (Nat.le_add_right _ _) (hge r hr)
          · intro r hr
            have hr := hge r hr
            dsimp only
            omega
        · exact ⟨_, rfl, hsingle _⟩
      · exact ⟨_, rfl, hsingle _⟩

/-! ## Bounds -/

/-- Every pass is at a packet start, and stays inside when the descriptor does. -/
theorem recvRounds_comes {len : ℕ} {buf : List UInt8} {fuel n start : ℕ} {rounds : List Round}
    (hcomes : mem.frame n = true → Comes rcr mem len buf n start) (hle : start ≤ len)
    (h : recvRounds rcr mem fuel n start (len - start) (buf.drop start) = some rounds) :
    ∀ r ∈ rounds, (∃ k, Comes rcr mem len buf k r.start) ∧
      (r.start + 24 ≤ len → Within len r.ops) := by
  induction fuel generalizing n start rounds with
  | zero => exact nomatch h
  | succ fuel ih =>
    unfold recvRounds at h
    split at h
    · obtain rfl := Option.some.inj h
      exact nofun
    · next hframe =>
      have hcome := hcomes (by simpa using hframe)
      have hdesc (hin : start + 24 ≤ len) : (Op.bytes start 24).Within len := bytes_within _ hin
      dsimp only at h
      split at h
      · next hgo =>
        have hfits := goesOn_fits hgo
        have hthis : (∃ k, Comes rcr mem len buf k start) ∧ (start + 24 ≤ len → Within len
            (.bytes start 24 :: copied rcr start (queryRxDescStatus (buf.drop start)))) := by
          refine ⟨⟨n, hcome⟩, fun hin => (within_cons _ _).mpr ⟨hdesc hin, ?_⟩⟩
          unfold copied
          split
          · exact within_nil
          · exact (within_cons _ _).mpr ⟨bytes_within _ (by omega), within_nil⟩
        split at h
        · next hnext =>
          have hstart : start + advance rcr (queryRxDescStatus (buf.drop start)) < len := by omega
          rw [Nat.sub_sub, List.drop_drop] at h
          obtain ⟨tail, htail, rfl⟩ := Option.map_eq_some_iff.mp h
          intro r hr
          obtain rfl | hr := List.mem_cons.mp hr
          · exact hthis
          · exact ih (hcome.next hgo hstart) (Nat.le_of_lt hstart) htail r hr
        · obtain rfl := Option.some.inj h
          intro r hr
          rw [List.mem_singleton.mp hr]
          exact hthis
      · obtain rfl := Option.some.inj h
        intro r hr
        rw [List.mem_singleton.mp hr]
        exact ⟨⟨n, hcome⟩, fun hin => (within_cons _ _).mpr ⟨hdesc hin, within_nil⟩⟩

theorem Comes.frame {len n start : ℕ} {buf : List UInt8} (h : Comes rcr mem len buf n start) :
    mem.frame n = true := by
  cases h with
  | first hframe => exact hframe
  | next _ _ _ hframe => exact hframe

/-- The loop reads the descriptor at every packet start that it comes to. -/
theorem Comes.read {len fuel n start : ℕ} {buf : List UInt8} {rounds : List Round}
    (h : recvRounds rcr mem fuel 0 0 len buf = some rounds)
    (hcomes : Comes rcr mem len buf n start) :
    ∃ r ∈ rounds, Op.bytes start 24 ∈ r.ops := by
  suffices hs : ∃ fuel tail, recvRounds rcr mem fuel n start (len - start) (buf.drop start) =
      some tail ∧ tail ⊆ rounds by
    obtain ⟨fuel, tail, htail, hsub⟩ := hs
    cases fuel with
    | zero => exact nomatch htail
    | succ fuel =>
      unfold recvRounds at htail
      rw [if_neg (by rw [hcomes.frame]; decide)] at htail
      dsimp only at htail
      split at htail
      · split at htail
        · obtain ⟨tail, -, rfl⟩ := Option.map_eq_some_iff.mp htail
          exact ⟨_, hsub List.mem_cons_self, List.mem_cons_self⟩
        · obtain rfl := Option.some.inj htail
          exact ⟨_, hsub List.mem_cons_self, List.mem_cons_self⟩
      · obtain rfl := Option.some.inj htail
        exact ⟨_, hsub List.mem_cons_self, List.mem_cons_self⟩
  induction hcomes with
  | first hframe => exact ⟨fuel, rounds, h, fun _ hr => hr⟩
  | next hprev hgo hlt hframe ih =>
    obtain ⟨fuel, tail, htail, hsub⟩ := ih
    cases fuel with
    | zero => exact nomatch htail
    | succ fuel =>
      unfold recvRounds at htail
      rw [if_neg (by rw [hprev.frame]; decide)] at htail
      dsimp only at htail
      rw [if_pos hgo, if_pos (by omega), Nat.sub_sub, List.drop_drop] at htail
      obtain ⟨rest, hrest, rfl⟩ := Option.map_eq_some_iff.mp htail
      exact ⟨fuel, rest, hrest, fun r hr => hsub (List.mem_cons_of_mem _ hr)⟩

theorem Comes.page {len n start : ℕ} {buf : List UInt8} (h : Comes rcr mem len buf n start) :
    start % 128 = 0 ∧ (start < len ∨ start = 0) := by
  induction h with
  | first => exact ⟨rfl, .inr rfl⟩
  | @next n start hprev hgo hlt hframe ih =>
    have hadv := (advance_spec rcr (queryRxDescStatus (buf.drop start))).2.2
    exact ⟨by omega, .inl hlt⟩

def Round.packets (buf : List UInt8) (r : Round) : List (List UInt8) :=
  r.ops.tail.flatMap fun
    | .bytes start size => [(buf.drop start.toNat).take size]
    | .length _ => []

theorem packets_copied (rcr : Rcr) (buf : List UInt8) (start : ℕ) (d : RxDesc) :
    Round.packets buf ⟨start, .bytes start 24 :: copied rcr start d⟩ =
      if d.crcErr || d.icvErr then []
      else [((buf.drop start).drop (pktStart rcr d)).take d.pktLen] := by
  unfold Round.packets copied
  split
  · rfl
  · rw [List.drop_drop]
    rfl

theorem recvRounds_handed {fuel n start : ℕ} {buf : List UInt8} {rounds : List Round}
    (h : recvRounds rcr mem fuel n start (buf.drop start).length (buf.drop start) = some rounds) :
    (recvBufLoop rcr mem fuel n (buf.drop start)).handed.map (·.bytes) =
      rounds.flatMap (Round.packets buf) := by
  induction fuel generalizing n start rounds with
  | zero => exact nomatch h
  | succ fuel ih =>
    unfold recvRounds at h
    unfold recvBufLoop
    by_cases hframe : mem.frame n = false
    · rw [if_pos hframe] at h ⊢
      obtain rfl := Option.some.inj h
      rfl
    · rw [if_neg hframe] at h ⊢
      dsimp only at h ⊢
      have hcopied := packets_copied rcr buf start (queryRxDescStatus (buf.drop start))
      generalize queryRxDescStatus (buf.drop start) = d at h hcopied ⊢
      by_cases hgo : goesOn rcr mem n (buf.drop start).length d = true
      · obtain ⟨hcrc, hlen, hskb⟩ := of_decide_eq_true hgo
        rw [if_pos hgo] at h
        rw [if_neg hcrc, if_neg hlen]
        -- what the packets behind this one give
        obtain ⟨rest, hrest, rfl⟩ : ∃ rest : List Round,
            (if rnd128 (pktStart rcr d + d.pktLen) < (buf.drop start).length then
              recvBufLoop rcr mem fuel (n + 1)
                ((buf.drop start).drop (rnd128 (pktStart rcr d + d.pktLen)))
            else {}).handed.map (·.bytes) = rest.flatMap (Round.packets buf) ∧
            ⟨start, .bytes start 24 :: copied rcr start d⟩ :: rest = rounds := by
          by_cases hnext : advance rcr d < (buf.drop start).length
          · rw [if_pos hnext, List.length_drop, Nat.sub_sub, List.drop_drop,
              ← List.length_drop] at h
            obtain ⟨rest, hrest, rfl⟩ := Option.map_eq_some_iff.mp h
            refine ⟨rest, ?_, rfl⟩
            rw [advance] at hnext
            rw [if_pos hnext, List.drop_drop]
            exact ih hrest
          · rw [if_neg hnext] at h
            refine ⟨[], ?_, Option.some.inj h⟩
            rw [advance] at hnext
            rw [if_neg hnext]
            rfl
        rw [List.flatMap_cons, hcopied, ← hrest]
        cases herr : d.crcErr || d.icvErr with
        | true => rfl
        | false =>
          rw [herr] at hskb
          have hskb : mem.skb n = true := by simpa using hskb
          rw [if_neg Bool.false_ne_true, if_neg (by rw [hskb]; decide), if_neg Bool.false_ne_true]
          rfl
      · rw [if_neg hgo] at h
        obtain rfl := Option.some.inj h
        change _ = []
        by_cases hcrc : rcr.acrc32 = false ∧ d.crcErr = true
        · rw [if_pos hcrc]
          rfl
        · rw [if_neg hcrc]
          by_cases hlen : d.pktLen = 0 ∨ (buf.drop start).length < pktStart rcr d + d.pktLen
          · rw [if_pos hlen]
            rfl
          · have hskip : ¬ ((d.crcErr || d.icvErr) = true ∨ mem.skb n = true) :=
              fun hskb => hgo (decide_eq_true ⟨hcrc, hlen, hskb⟩)
            rw [not_or, Bool.not_eq_true, Bool.not_eq_true] at hskip
            rw [if_neg hlen, if_neg (by rw [hskip.1]; decide), if_pos hskip.2]
            rfl

def ReadsInside (rcr : Rcr) (mem : Memory) (len : ℕ) (buf : List UInt8) : Prop :=
  ∃ rounds, recvRounds rcr mem (len / 24 + 1) 0 0 len buf = some rounds ∧
    rounds.Pairwise (fun a b => a.start + 24 ≤ b.start) ∧ ∀ r ∈ rounds, Within len r.ops

theorem ReadsInside.descriptor {len n start : ℕ} {buf : List UInt8}
    (h : ReadsInside rcr mem len buf) (hcomes : Comes rcr mem len buf n start) :
    start + 24 ≤ len := by
  obtain ⟨rounds, hrounds, -, hin⟩ := h
  obtain ⟨r, hr, hdesc⟩ := hcomes.read hrounds
  exact (bytes_within_iff start (by decide)).1 (hin r hr _ hdesc)

/-- It does, just when no descriptor is cut off by the end of the buffer: the last page has
none or room for one, or the loop does not come to it. -/
theorem recv_tasklet_inside (rcr : Rcr) (mem : Memory) (len : ℕ) (buf : List UInt8) :
    ReadsInside rcr mem len buf ↔
      (len % 128 < 24 → ∀ n, ¬ Comes rcr mem len buf n (len - len % 128)) := by
  constructor
  · intro h hshort n hcomes
    have hend := h.descriptor hcomes
    omega
  · intro hlast
    obtain ⟨rounds, hrounds, -, hpair⟩ : ∃ rounds, recvRounds rcr mem (len / 24 + 1) 0 0 len buf =
        some rounds ∧ _ := recvRounds_terminates rcr mem 0 0 len buf (by omega)
    refine ⟨rounds, hrounds, hpair, fun r hr => ?_⟩
    obtain ⟨⟨k, hk⟩, hin⟩ :=
      recvRounds_comes (fun hframe => .first hframe) (Nat.zero_le len) hrounds r hr
    refine hin (Nat.le_of_not_lt fun hlt => ?_)
    obtain ⟨hmod, hpos⟩ := hk.page
    have heq : r.start = len - len % 128 := by omega
    exact hlast (by omega) k (heq ▸ hk)

/-- A packet of eight bytes and its page, and two bytes of the next page. -/
theorem descriptor_cut :
    ¬ ReadsInside {} {} 130 (8 :: List.replicate 129 0) ∧ ¬ ReadsInside {} {} 10 [] := by
  constructor
  · intro h
    have hend := h.descriptor (.next (.first rfl) (by decide) (by decide) rfl)
    revert hend
    decide
  · intro h
    have hend := h.descriptor (.first rfl)
    omega

end Rtl8189.AggregateBounds
