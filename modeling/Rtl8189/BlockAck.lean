import Rtl8189.RecvReorder

/-!
# Block-ack session control

BlockAckReq, DELBA and ADDBA write the control block of the reorder window
without looking at its pending queue. A request stays harmless when its start
number fits the window as it stands, and a session may end or restart only with
an empty queue. Under these conditions every run keeps the order of a session
and strands nothing.
-/
namespace Rtl8189.BlockAck

open SlidingWindow EventRun RecvReorder

structure AddBaRspParm where
  tid : ℕ
  status : ℕ
  size : ℕ
  deriving DecidableEq, Repr

def rtwProcessBarFrame (tid : ℕ) (pframe : List UInt8) (c : RecvReorderCtrl) : RecvReorderCtrl :=
  if le16 pframe 16 / 0x1000 = tid then { c with indicateSeq := le16 pframe 18 / 16 } else c

/-- The DELBA branch of `OnAction_back`: bit 3 of octet 3 names the initiator. -/
def onActionDelba (tid : ℕ) (frameBody : List UInt8) (c : RecvReorderCtrl) : RecvReorderCtrl :=
  if byteAt frameBody 3 / 8 % 2 = 1 ∧ byteAt frameBody 3 / 16 = tid then
    { c with enable := false, ampduSize := 0xFF }
  else c

def processAddbaReq (frameBody : List UInt8) (accept : Bool) (size : ℕ) : AddBaRspParm :=
  ⟨le16 frameBody 3 / 4 % 16, if accept then 0 else 37, size⟩

def addBaRspHdl (tid : ℕ) (p : AddBaRspParm) (c : RecvReorderCtrl) : RecvReorderCtrl :=
  if p.tid = tid then
    if p.status = 0 then
      { c with recAbbaRspAck := true, enable := true, ampduSize := p.size }
    else if p.status = 37 then { c with recAbbaRspAck := true, enable := false }
    else { c with recAbbaRspAck := true }
  else c

/-- The end of `recv_func_posthandle`: a QoS frame that the reorder code hands
back is processed at once, between the two updates of `indicate_seq`. -/
def posthandleReorder (c : RecvReorderCtrl) (f : RecvFrame) :
    RecvReorderCtrl × List RecvFrame × RecvRet :=
  let o := recvIndicatepktReorder c f
  if o.2.2 = .success ∧ f.attrib.qos then
    ({ o.1 with indicateSeq := (f.attrib.seqNum + 1) % 4096 }, o.2.1, o.2.2)
  else o

inductive BaEvent where
  | frame (f : RecvFrame)
  | timeout (cannotRun : Bool)
  | bar (pframe : List UInt8)
  | delba (frameBody : List UInt8)
  | addbaReq (frameBody : List UInt8) (accept : Bool) (size : ℕ)
  | addbaRsp
  deriving DecidableEq, Repr

/-- One TID with the responses queued for the command thread. `session` is what
the reorder window handed up since the last accepted set-up; frames that bypass
a disabled window belong to no session. -/
structure BaRun where
  tid : ℕ
  ctrl : RecvReorderCtrl
  cmds : List AddBaRspParm := []
  session : List RecvFrame := []
  handed : List RecvFrame := []
  accepted : List RecvFrame := []

def baStep (s : BaRun) : BaEvent → BaRun
  | .frame f =>
    let o := posthandleReorder s.ctrl f
    { s with ctrl := o.1, session := s.session ++ o.2.1, handed := s.handed ++ o.2.1
             accepted := if o.2.2 = .handled then s.accepted ++ [f] else s.accepted }
  | .timeout b =>
    let o := rtwReorderingCtrlTimeoutHandler b s.ctrl
    { s with ctrl := o.1, session := s.session ++ o.2, handed := s.handed ++ o.2 }
  | .bar pframe => { s with ctrl := rtwProcessBarFrame s.tid pframe s.ctrl }
  | .delba body => { s with ctrl := onActionDelba s.tid body s.ctrl }
  | .addbaReq body accept size => { s with cmds := s.cmds ++ [processAddbaReq body accept size] }
  | .addbaRsp =>
    match s.cmds with
    | [] => s
    | p :: cmds =>
      { s with
        cmds := cmds
        ctrl := addBaRspHdl s.tid p s.ctrl
        session := if p.tid = s.tid ∧ p.status = 0 then [] else s.session }

def snDist (b n : ℕ) : ℕ := (n + 4096 - b) % 4096

/-- A start number a BlockAckReq may set: with nothing pending, the number
after the last one handed up; else a number after the last one handed up that
keeps everything pending in the window, and not one of two neighbours that are
both pending. -/
def StartFits (c : RecvReorderCtrl) (last : Option ℕ) (b : ℕ) : Prop :=
  match seqs c.pending with
  | [] => ∀ p ∈ last, b = (p + 1) % 4096
  | x :: ns =>
    (∀ n ∈ x :: ns, snDist b (n + 1) ≤ c.wsizeB) ∧
      (∀ p ∈ last, 1 ≤ snDist p b ∧ snDist p b ≤ snDist p x + 1) ∧
      ¬ (b ∈ x :: ns ∧ ((b + 1) % 4096 ∈ x :: ns ∨ (b + 4095) % 4096 ∈ x :: ns))

instance (c : RecvReorderCtrl) (last : Option ℕ) (b : ℕ) : Decidable (StartFits c last b) := by
  unfold StartFits
  split <;> infer_instance

def BaOk (s : BaRun) : BaEvent → Prop
  | .frame _ | .timeout _ | .addbaReq .. => True
  | .bar pframe =>
    le16 pframe 16 / 0x1000 = s.tid → s.ctrl.enable = true → s.ctrl.recAbbaRspAck = false →
      StartFits s.ctrl (seqs s.session).getLast? (le16 pframe 18 / 16)
  | .delba body =>
    byteAt body 3 / 8 % 2 = 1 → byteAt body 3 / 16 = s.tid → s.ctrl.pending = []
  | .addbaRsp => ∀ p ∈ s.cmds.head?, p.tid = s.tid → s.ctrl.pending = []

instance (s : BaRun) : ∀ e, Decidable (BaOk s e)
  | .frame _ | .timeout _ | .addbaReq .. => inferInstanceAs (Decidable True)
  | .bar _ | .delba _ => inferInstanceAs (Decidable (_ → _))
  | .addbaRsp => inferInstanceAs (Decidable (∀ p ∈ s.cmds.head?, _ → _))

theorem seqs_pending {c : RecvReorderCtrl} {W : Window RecvFrame} (hc : Refines c W) :
    seqs c.pending = W.pending.map (fun x => x.2.attrib.seqNum.val) := by
  rw [hc.pending]
  exact List.map_map

/-- A fitting start number leaves the window ordered at an unwrapped start. -/
theorem startFits_tracks {c : RecvReorderCtrl} {W : Window RecvFrame} {last : Option ℕ} {b : ℕ}
    (hb : b < 4096) (h2 : c.wsizeB ≤ 255) (hc : Tracks c W last) (hfit : StartFits c last b) :
    ∃ W', Tracks { c with indicateSeq := b } W' last := by
  obtain ⟨⟨hstart, hsize, hpend, hnum⟩, hsettled, p, hord, hp⟩ := hc
  have hseqs := seqs_pending ⟨hstart, hsize, hpend, hnum⟩
  cases hW : W.pending with
  | nil =>
    rw [hW] at hseqs hpend
    cases last with
    | none => exact ⟨_, tracks_of_empty (c := { c with indicateSeq := b }) hpend hb hsettled⟩
    | some q =>
      obtain ⟨m, rfl, hm⟩ := Option.map_eq_some_iff.mp hp
      have hidle := hord.idle m rfl hW
      simp only [StartFits, hseqs, List.map_nil, Option.mem_def, Option.some.injEq,
        forall_eq'] at hfit
      have hm : m % 4096 = q := hm
      have heq : b = c.indicateSeq := by omega
      subst heq
      exact ⟨W, ⟨hstart, hsize, hW ▸ hpend, hnum⟩, hsettled, some m, hord, hp⟩
  | cons x l =>
    have hx : x ∈ W.pending.head? := by simp [hW]
    have hmem := List.mem_of_head? hx
    have hxn := hnum x hmem
    have hx1 := hord.start_le x hmem
    simp only [StartFits, hseqs, hW, List.map_cons] at hfit
    rw [← List.map_cons (f := fun x : Item RecvFrame => x.2.attrib.seqNum.val), ← hW] at hfit
    obtain ⟨hwin, hlast, hnb⟩ := hfit
    have hk := hwin _ (List.mem_map_of_mem hmem)
    simp only [Numbered] at hxn
    generalize hB : x.1 + 1 - (snDist b (x.2.attrib.seqNum + 1) : ℤ) = B
    simp only [snDist] at hB hk
    have hBb : (b : ℤ) = B % 4096 := by omega
    have hle : ∀ y ∈ W.pending, x.1 ≤ y.1 := hord.sorted.head_le hx
    have hupper : ∀ y ∈ W.pending, y.1 < B + W.size := by
      intro y hy
      have hyk := hwin _ (List.mem_map_of_mem hy)
      have hyn := hnum y hy
      have hxy := hle y hy
      have hyu := hord.upper y hy
      simp only [snDist, Numbered] at hyk hyn
      omega
    have hpending : ∀ y ∈ W.pending, y.2.attrib.seqNum.val ∈
        W.pending.map (fun x => x.2.attrib.seqNum.val) := fun y hy => List.mem_map_of_mem hy
    have hfront : B < x.1 ∨ (B ≤ x.1 + 1 ∧ ∀ y ∈ W.pending, y.1 ≠ x.1 + 1) := by
      by_cases hlt : B < x.1
      · exact .inl hlt
      · refine .inr ⟨by omega, fun y hy hyx => hnb ?_⟩
        have hyn := hnum y hy
        have hxm := hpending x hmem
        have hym := hpending y hy
        simp only [Numbered] at hyn
        by_cases heq : B = x.1
        · have h1 : x.2.attrib.seqNum.val = b := by omega
          have h3 : y.2.attrib.seqNum.val = (b + 1) % 4096 := by omega
          exact ⟨h1 ▸ hxm, .inl (h3 ▸ hym)⟩
        · have h1 : y.2.attrib.seqNum.val = b := by omega
          have h3 : x.2.attrib.seqNum.val = (b + 4095) % 4096 := by omega
          exact ⟨h1 ▸ hym, .inr (h3 ▸ hxm)⟩
    have hbelow : ∀ m ∈ p, m < B := by
      intro m hm
      rw [Option.mem_def.mp hm, Option.map_some] at hp
      obtain ⟨q, hq, hqm⟩ := Option.map_eq_some_iff.mp hp.symm
      have hqm : (q : ℤ) = m % 4096 := hqm
      have hqf := hlast q hq
      have hahead := hord.ahead m hm x hx
      have h1 := hahead.1
      have h3 := hahead.2
      simp only [snDist] at hqf
      omega
    refine ⟨{ W with start := B }, ⟨hBb, hsize, hpend, hnum⟩, hsettled, p, ?_, hp⟩
    refine ⟨hord.sorted, hupper, hord.room, fun z hz => ?_, hbelow, hord.ahead,
      fun _ _ h => absurd h (List.ne_nil_of_mem hmem)⟩
    obtain rfl : x = z := Option.some.inj (hx.symm.trans hz)
    exact hfront

theorem startSeq_lt (b : List UInt8) (i : ℕ) : le16 b i / 16 < 4096 := by
  have h1 := byteAt_lt b i
  have h2 := byteAt_lt b (i + 1)
  simp only [le16]
  omega

theorem posthandleReorder_enabled {c : RecvReorderCtrl} (f : RecvFrame) (hen : c.enable = true) :
    posthandleReorder c f = recvIndicatepktReorder c f := by
  simp only [posthandleReorder]
  refine if_neg fun h => ?_
  simp only [recvIndicatepktReorder, hen, h.2, Bool.not_true, Bool.or_self, Bool.false_eq_true,
    if_false] at h
  split_ifs at h
  · simp at h
  · split at h <;> simp at h

theorem posthandleReorder_disabled {c : RecvReorderCtrl} (f : RecvFrame)
    (hen : c.enable = false) :
    (posthandleReorder c f).2 = ([], .success) ∧
      (posthandleReorder c f).1.pending = c.pending ∧
      SameSession c (posthandleReorder c f).1 := by
  have hout : recvIndicatepktReorder c f = (c, [], .success) := by simp [recvIndicatepktReorder, hen]
  simp only [posthandleReorder, hout, true_and]
  split_ifs <;> exact ⟨rfl, rfl, rfl, rfl, rfl⟩

theorem rtwReorderingCtrlTimeoutHandler_empty {c : RecvReorderCtrl} (b : Bool)
    (hc : c.pending = []) :
    (rtwReorderingCtrlTimeoutHandler b c).2 = [] ∧
      (rtwReorderingCtrlTimeoutHandler b c).1.pending = [] :=
  List.append_eq_nil_iff.mp ((rtwReorderingCtrlTimeoutHandler_append b c).trans hc)

/-- What every reached state satisfies: an enabled session follows a window, a
disabled one holds nothing, and what was accepted is handed up or pending. -/
structure BaInv (wsize : ℕ) (s : BaRun) : Prop where
  wsize : s.ctrl.wsizeB = wsize
  enabled : s.ctrl.enable = true → Synced False s.ctrl (seqs s.session).getLast?
  disabled : s.ctrl.enable = false → s.ctrl.pending = []
  inOrder : InOrder (seqs s.session)
  conserved : (s.handed ++ s.ctrl.pending).Perm s.accepted
  status : ∀ p ∈ s.cmds, p.status = 0 ∨ p.status = 37

theorem frame_inv {wsize : ℕ} (h1 : 1 ≤ wsize) (h2 : wsize ≤ 255) {s : BaRun} (f : RecvFrame)
    (hs : BaInv wsize s) : BaInv wsize (baStep s (.frame f)) := by
  obtain ⟨rfl, hen, hdis, horder, hcons, hstatus⟩ := hs
  cases he : s.ctrl.enable with
  | true =>
    have hh := recvIndicatepktReorder_handed f h1 h2 (hen he)
    have hsame := recvIndicatepktReorder_sameSession s.ctrl f
    have hc := conserved_frame (s := ⟨s.ctrl, s.handed, s.accepted⟩) hcons f
    simp only [baStep, posthandleReorder_enabled f he]
    refine ⟨hsame.2.1, fun _ => ?_, fun h => ?_, hh.inOrder horder, hc, hstatus⟩
    · exact (lastSeq_append _ _).symm ▸ hh.synced
    · simp [hsame.1, he] at h
  | false =>
    obtain ⟨hout, hpend, hsame⟩ := posthandleReorder_disabled f he
    simp only [baStep, hout, List.append_nil, reduceCtorEq, if_false]
    refine ⟨hsame.2.1, fun h => ?_, fun _ => hpend.trans (hdis he), horder, ?_, hstatus⟩
    · simp [hsame.1, he] at h
    · simpa only [hpend] using hcons

theorem timeout_inv {wsize : ℕ} (h2 : wsize ≤ 255) {s : BaRun} (b : Bool)
    (hs : BaInv wsize s) : BaInv wsize (baStep s (.timeout b)) := by
  obtain ⟨rfl, hen, hdis, horder, hcons, hstatus⟩ := hs
  have hsame := rtwReorderingCtrlTimeoutHandler_sameSession b s.ctrl
  have hc := conserved_timeout (s := ⟨s.ctrl, s.handed, s.accepted⟩) hcons b
  cases he : s.ctrl.enable with
  | true =>
    have hh := rtwReorderingCtrlTimeoutHandler_handed b h2 (hen he)
    refine ⟨hsame.2.1, fun _ => ?_, fun h => ?_, hh.inOrder horder, hc, hstatus⟩
    · exact (lastSeq_append _ _).symm ▸ hh.synced
    · simp [baStep, hsame.1, he] at h
  | false =>
    obtain ⟨hout, hpend⟩ := rtwReorderingCtrlTimeoutHandler_empty b (hdis he)
    refine ⟨hsame.2.1, fun h => ?_, fun _ => hpend, ?_, hc, hstatus⟩
    · simp [baStep, hsame.1, he] at h
    · simpa only [baStep, hout, List.append_nil] using horder

theorem bar_inv {wsize : ℕ} (h2 : wsize ≤ 255) {s : BaRun} (pframe : List UInt8)
    (hs : BaInv wsize s) (hok : BaOk s (.bar pframe)) : BaInv wsize (baStep s (.bar pframe)) := by
  obtain ⟨rfl, hen, hdis, horder, hcons, hstatus⟩ := hs
  simp only [baStep, rtwProcessBarFrame]
  by_cases htid : le16 pframe 16 / 0x1000 = s.tid
  · rw [if_pos htid]
    refine ⟨rfl, fun he => ?_, hdis, horder, hcons, hstatus⟩
    rcases hen he with ⟨hempty, hlast, hset⟩ | ⟨W, hW, _⟩
    · cases habba : s.ctrl.recAbbaRspAck with
      | true => exact .inl ⟨hempty, hlast, .inr rfl⟩
      | false =>
        rw [hlast]
        exact .inr ⟨_, tracks_of_empty (c := { s.ctrl with
          indicateSeq := le16 pframe 18 / 16, recAbbaRspAck := false }) hempty
          (startSeq_lt pframe 18) rfl, nofun⟩
    · obtain ⟨W', hW'⟩ := startFits_tracks (startSeq_lt pframe 18) h2 hW (hok htid he hW.settled)
      exact .inr ⟨W', hW', nofun⟩
  · rw [if_neg htid]
    exact ⟨rfl, hen, hdis, horder, hcons, hstatus⟩

theorem delba_inv {wsize : ℕ} {s : BaRun} (body : List UInt8) (hs : BaInv wsize s)
    (hok : BaOk s (.delba body)) : BaInv wsize (baStep s (.delba body)) := by
  obtain ⟨rfl, hen, hdis, horder, hcons, hstatus⟩ := hs
  simp only [baStep, onActionDelba]
  by_cases h : byteAt body 3 / 8 % 2 = 1 ∧ byteAt body 3 / 16 = s.tid
  · rw [if_pos h]
    exact ⟨rfl, nofun, fun _ => hok h.1 h.2, horder, hcons, hstatus⟩
  · rw [if_neg h]
    exact ⟨rfl, hen, hdis, horder, hcons, hstatus⟩

theorem addbaReq_inv {wsize : ℕ} {s : BaRun} (body : List UInt8) (accept : Bool) (size : ℕ)
    (hs : BaInv wsize s) : BaInv wsize (baStep s (.addbaReq body accept size)) := by
  refine ⟨hs.wsize, hs.enabled, hs.disabled, hs.inOrder, hs.conserved, fun p hp => ?_⟩
  rcases List.mem_append.mp hp with hp | hp
  · exact hs.status p hp
  · rw [List.mem_singleton.mp hp]
    cases accept <;> simp [processAddbaReq]

theorem addbaRsp_inv {wsize : ℕ} {s : BaRun} (hs : BaInv wsize s) (hok : BaOk s .addbaRsp) :
    BaInv wsize (baStep s .addbaRsp) := by
  obtain ⟨rfl, hen, hdis, horder, hcons, hstatus⟩ := hs
  simp only [baStep]
  cases hcmds : s.cmds with
  | nil => exact ⟨rfl, hen, hdis, horder, hcons, hstatus⟩
  | cons p cmds =>
    have hrest : ∀ q ∈ cmds, q.status = 0 ∨ q.status = 37 := fun q hq =>
      hstatus q (hcmds ▸ List.mem_cons_of_mem p hq)
    simp only [addBaRspHdl]
    by_cases htid : p.tid = s.tid
    · have hempty := hok p (by simp [hcmds]) htid
      rcases hstatus p (hcmds ▸ List.mem_cons_self) with hst | hst
      · simp only [htid, hst, and_self, if_true]
        exact ⟨rfl, fun _ => .inl ⟨hempty, rfl, .inr rfl⟩, nofun, .nil, hcons, hrest⟩
      · simp only [htid, hst, if_true, true_and, OfNat.ofNat_ne_zero, if_false]
        exact ⟨rfl, nofun, fun _ => hempty, horder, hcons, hrest⟩
    · simp only [htid, if_false, false_and]
      exact ⟨rfl, hen, hdis, horder, hcons, hrest⟩

theorem baStep_inv {wsize : ℕ} (h1 : 1 ≤ wsize) (h2 : wsize ≤ 255) (s : BaRun) (e : BaEvent)
    (hs : BaInv wsize s) (hok : BaOk s e) : BaInv wsize (baStep s e) := by
  cases e with
  | frame f => exact frame_inv h1 h2 f hs
  | timeout b => exact timeout_inv h2 b hs
  | bar pframe => exact bar_inv h2 pframe hs hok
  | delba body => exact delba_inv body hs hok
  | addbaReq body accept size => exact addbaReq_inv body accept size hs
  | addbaRsp => exact addbaRsp_inv hs hok

/-- Over every run from an empty pending queue whose BlockAckReq start numbers
fit the window and whose sessions end and restart with an empty queue, each
session is handed up in `SN_LESS` order, every accepted frame is handed up or
pending exactly once, and nothing is pending in a disabled session. -/
theorem baRun_keeps_order {s : BaRun} (hpending : s.ctrl.pending = [])
    (hind : s.ctrl.indicateSeq = 0xFFFF ∨ s.ctrl.indicateSeq < 4096) (h1 : 1 ≤ s.ctrl.wsizeB)
    (h2 : s.ctrl.wsizeB ≤ 255) (hcmds : s.cmds = []) (hsession : s.session = [])
    (hhanded : s.handed = []) (haccepted : s.accepted = []) {es : List BaEvent}
    (hes : Along baStep BaOk s es) :
    let t := run baStep s es
    InOrder (seqs t.session) ∧ (t.handed ++ t.ctrl.pending).Perm t.accepted ∧
      (t.ctrl.pending ≠ [] → t.ctrl.enable = true) := by
  have hsynced : Synced False s.ctrl (seqs s.session).getLast? := by
    rw [hsession]
    by_cases hset : s.ctrl.indicateSeq = 0xFFFF ∨ s.ctrl.recAbbaRspAck = true
    · exact .inl ⟨hpending, rfl, hset⟩
    · simp only [not_or, Bool.not_eq_true] at hset
      exact .inr ⟨_, tracks_of_empty hpending (hind.resolve_left hset.1) hset.2, nofun⟩
  have hinv : BaInv s.ctrl.wsizeB s := by
    refine ⟨rfl, fun _ => hsynced, fun _ => hpending, ?_, ?_, by simp [hcmds]⟩
    · rw [hsession]
      exact .nil
    · rw [hhanded, hpending, haccepted]
      exact .nil
  have hrun := run_spec BaOk (BaInv s.ctrl.wsizeB) (baStep_inv h1 h2) hinv hes
  refine ⟨hrun.inOrder, hrun.conserved, fun hne => ?_⟩
  cases he : (run baStep s es).ctrl.enable with
  | true => rfl
  | false => exact absurd (hrun.disabled he) hne

def barFrame (tid start : ℕ) : List UInt8 :=
  [0x84, 0x00] ++ List.replicate 14 0 ++
    [0x05, UInt8.ofNat (16 * tid), UInt8.ofNat (16 * start), UInt8.ofNat (start / 16)]

def delbaBody (tid : ℕ) : List UInt8 := [3, 2, 0, UInt8.ofNat (16 * tid + 8), 1, 0]

theorem baRun_keeps_order_rebased :
    let s : BaRun := { tid := 0, ctrl := { enable := true } }
    let es : List BaEvent := [.frame (qosFrame 10), .frame (qosFrame 12), .bar (barFrame 0 12),
      .frame (qosFrame 14), .timeout false, .delba (delbaBody 0),
      .addbaReq [3, 0, 1, 0x02, 0x10, 0, 0, 0, 0] true 64, .addbaRsp, .frame (qosFrame 3)]
    let t := run baStep s es
    seqs t.handed = [10, 12, 14, 3] ∧ InOrder (seqs t.session) ∧
      (t.handed ++ t.ctrl.pending).Perm t.accepted ∧
      (t.ctrl.pending ≠ [] → t.ctrl.enable = true) :=
  ⟨by decide, baRun_keeps_order rfl (by decide) (by decide) (by decide) rfl rfl rfl rfl
    (by decide)⟩

/-- A start number behind the last frame lets an older frame through, and a
DELBA strands what is pending. -/
theorem bar_and_delba_break_session :
    let s : BaRun := { tid := 0, ctrl := { enable := true } }
    let t := run baStep s [.frame (qosFrame 10), .bar (barFrame 0 5), .frame (qosFrame 5)]
    let u := run baStep s [.frame (qosFrame 0), .frame (qosFrame 2), .delba (delbaBody 0)]
    (seqs t.session = [10, 5] ∧ ¬ InOrder (seqs t.session)) ∧
      seqs u.ctrl.pending = [2] ∧ u.ctrl.enable = false := by
  decide

end Rtl8189.BlockAck
