import Rtl8189.RecvPool

/-!
# Conservation of receive frames

Each function on the way of a frame keeps the bookkeeping of the pool, or frees
a frame a second time or loses one. What decides is a condition on the branch
taken, stated for each function; where all steps of a run meet it, every frame
is in one place after each of them.
-/
namespace Rtl8189.RecvConserve

open Defrag EventRun PacketNumber PortControl RecvPool RecvReorder

variable {all held : Multiset ℕ} {s : RecvPriv}

/-! ## Reassembly -/

theorem rtwGetStainfo_mem {hwaddr : MacAddr} {k : ℕ} (hk : rtwGetStainfo s hwaddr = some k) :
    k ∈ s.staHash := List.mem_of_find?_eq_some hk

theorem defragSta_mem {f : RecvFrame} {k : ℕ} (hk : defragSta s f = some k) : k ∈ s.staHash := by
  simp only [defragSta] at hk
  split at hk
  · next h => exact rtwGetStainfo_mem (h.trans hk)
  · split_ifs at hk
    exact rtwGetStainfo_mem hk

theorem idsOf_recvframeChkDefrag (micOk : RecvFrame → Bool) (pdefragQ : Option (List RecvFrame))
    (f : RecvFrame) :
    let d := recvframeChkDefrag micOk pdefragQ f
    idsOf d.queue + idsOf d.freed + idsOf d.frame.toList = f.id ::ₘ idsOf (pdefragQ.getD []) := by
  have hids := Multiset.coe_eq_coe.mpr (recvframeChkDefrag_ids micOk pdefragQ f)
  simp only [Defragged.ids, List.map_append, ← Multiset.coe_add] at hids
  exact hids

theorem chkDefrag_eq (micOk : RecvFrame → Bool) {f : RecvFrame}
    (hs : Sound all s (f.id ::ₘ held)) :
    ∃ s' freed, (chkDefrag micOk s f).1 = rtwFreeRecvframeQueue s' freed ∧
      s'.recvreorderCtrl = s.recvreorderCtrl ∧
      Sound all s' (idsOf freed + (idsOf (chkDefrag micOk s f).2.toList + held)) := by
  cases hk : defragSta s f with
  | none =>
    have hids := idsOf_recvframeChkDefrag micOk none f
    simp only [recvframeChkDefrag_none_queue, idsOf_nil, zero_add] at hids
    simp only [chkDefrag, hk]
    refine ⟨s, _, rfl, rfl, ?_⟩
    rw [← add_assoc, hids, Multiset.cons_add]
    exact (zero_add held).symm ▸ hs
  | some k =>
    have hids := idsOf_recvframeChkDefrag micOk (some (s.defragQ k)) f
    simp only [chkDefrag, hk]
    refine ⟨_, _, rfl, rfl, hs.setDefragQ (defragSta_mem hk) ?_⟩
    rw [← add_assoc, ← add_assoc, hids, Multiset.cons_add, Multiset.add_cons]
    rfl

theorem chkDefrag_sound (hall : all.Nodup) (micOk : RecvFrame → Bool) {f : RecvFrame}
    (hs : Sound all s (f.id ::ₘ held)) :
    Sound all (chkDefrag micOk s f).1 (idsOf (chkDefrag micOk s f).2.toList + held) := by
  obtain ⟨s', freed, heq, -, hs'⟩ := chkDefrag_eq micOk hs
  rw [heq]
  exact hs'.freeQueue hall

theorem chkDefrag_recvreorderCtrl (hall : all.Nodup) (micOk : RecvFrame → Bool) {f : RecvFrame}
    (hs : Sound all s (f.id ::ₘ held)) (k : ℕ) (tid : Fin 16) :
    (chkDefrag micOk s f).1.recvreorderCtrl k tid = s.recvreorderCtrl k tid := by
  obtain ⟨s', freed, heq, hctrl, hs'⟩ := chkDefrag_eq micOk hs
  rw [heq, hs'.freeQueue_recvreorderCtrl hall, hctrl]

theorem mem_queued_freeQueue {i : ℕ} {q : List RecvFrame} (hi : i ∈ queued s)
    (hq : i ∉ idsOf q) : i ∈ queued (rtwFreeRecvframeQueue s q) := by
  induction q generalizing s with
  | nil => exact hi
  | cons f q ih =>
    rw [idsOf_cons, Multiset.mem_cons, not_or] at hq
    refine ih ?_ hq.2
    have hfree : queued (rtwFreeRecvframe s f.id) = (queued s).filter (· ≠ f.id) :=
      queued_unlink s f.id
    rw [hfree]
    exact Multiset.mem_filter.mpr ⟨hi, hq.1⟩

theorem chkDefrag_mem_queued (hall : all.Nodup) (micOk : RecvFrame → Bool) {f : RecvFrame}
    {k : ℕ} (hs : Sound all s (f.id ::ₘ held)) (hk : defragSta s f = some k)
    (hmore : f.attrib.mfrag = true) : f.id ∈ queued (chkDefrag micOk s f).1 := by
  have hlive := defragSta_mem hk
  have hold : f.id ∉ idsOf (s.defragQ k) := by
    intro hmem
    exact hs.notMem_queued hall (Multiset.mem_cons_self _ _)
      (mem_queued hlive (Multiset.mem_add.mpr (.inl hmem)))
  have hput : ∀ q : List RecvFrame, f.id ∈ idsOf q → f.id ∈ queued (setDefragQ s k q) := by
    intro q hq
    refine mem_queued (k := k) hlive (Multiset.mem_add.mpr (.inl ?_))
    simpa only [setDefragQ, Function.update_self] using hq
  simp only [chkDefrag, hk, recvframeChkDefrag, checkDefragged, hmore, if_true]
  by_cases hzero : f.attrib.fragNum = 0
  · simp only [hzero, if_true]
    exact mem_queued_freeQueue (hput [f] (by simp)) hold
  · simp only [hzero, if_false]
    exact hput _ (by simp)

/-! ## After the checks -/

@[simp] theorem rtwFreeRecvframeQueue_preorderCtrl (q : List RecvFrame) :
    (rtwFreeRecvframeQueue s q).preorderCtrl = s.preorderCtrl := by
  induction q generalizing s with
  | nil => rfl
  | cons f q ih => exact ih

@[simp] theorem rtwFreeRecvframeQueue_staHash (q : List RecvFrame) :
    (rtwFreeRecvframeQueue s q).staHash = s.staHash := by
  induction q generalizing s with
  | nil => rfl
  | cons f q ih => exact ih

theorem chkDefrag_keeps (micOk : RecvFrame → Bool) (f : RecvFrame) :
    (chkDefrag micOk s f).1.preorderCtrl = s.preorderCtrl ∧
      (chkDefrag micOk s f).1.staHash = s.staHash := by
  simp only [chkDefrag]
  split <;> exact ⟨rtwFreeRecvframeQueue_preorderCtrl _, rtwFreeRecvframeQueue_staHash _⟩

theorem chkDefrag_frame (micOk : RecvFrame → Bool) (f : RecvFrame) :
    (chkDefrag micOk s f).2 =
      (recvframeChkDefrag micOk ((defragSta s f).map s.defragQ) f).frame := by
  cases hk : defragSta s f with
  | none => simp only [chkDefrag, hk, Option.map_none]
  | some k => simp only [chkDefrag, hk, Option.map_some]

theorem chkDefrag_id {micOk : RecvFrame → Bool} {f g : RecvFrame}
    (hg : (chkDefrag micOk s f).2 = some g) (hf : f.attrib.fragNum = 0) : g.id = f.id := by
  rw [chkDefrag_frame] at hg
  by_cases hmore : f.attrib.mfrag = true
  · rw [recvframeChkDefrag_more hmore] at hg
    exact nomatch hg
  · rw [recvframeChkDefrag_whole (Bool.eq_false_of_not_eq_true hmore) hf] at hg
    exact checkPrivacy_id hg

theorem portctrl_eq {env : RxEnv} {f g : RecvFrame} (hg : portctrl env f = some g) : g = f := by
  simp only [portctrl] at hg
  split_ifs at hg <;> exact (Option.some.inj hg).symm

/-- Either the frame is pending afterwards, or it is still in the hands of the
caller. -/
theorem indicateReorder_sound (hall : all.Nodup) {f : RecvFrame}
    (hs : Sound all s (f.id ::ₘ held))
    (hok : ∀ p ∈ s.preorderCtrl f.id, p.1 ∈ s.staHash ∨
      (recvIndicatepktReorder (s.recvreorderCtrl p.1 p.2) f).1.pending = []) :
    Sound all (indicateReorder s f).1
      (if (indicateReorder s f).2 = .handled then held else f.id ::ₘ held) := by
  cases hp : s.preorderCtrl f.id with
  | none =>
    simp only [indicateReorder, hp]
    exact hs
  | some p =>
    have hpend := hok p hp
    have hconserve := recvIndicatepktReorder_conserves (s.recvreorderCtrl p.1 p.2) f
    simp only [indicateReorder, hp]
    generalize recvIndicatepktReorder (s.recvreorderCtrl p.1 p.2) f = o at hpend hconserve ⊢
    have hids : idsOf o.2.1 + idsOf o.1.pending =
        idsOf (if o.2.2 = .handled then f :: (s.recvreorderCtrl p.1 p.2).pending
          else (s.recvreorderCtrl p.1 p.2).pending) := by
      rw [← idsOf_append]
      exact Multiset.coe_eq_coe.mpr (hconserve.map RecvFrame.id)
    refine Sound.freeQueue hall (hs.setReorderCtrl hpend ?_)
    rw [← add_assoc, add_comm (idsOf o.1.pending), hids]
    by_cases hhandled : o.2.2 = .handled
    · simp only [hhandled, if_true, idsOf_cons, Multiset.cons_add, Multiset.add_cons]
    · simp only [hhandled, if_false]

theorem indicateReorder_fail {f : RecvFrame} (hfail : (indicateReorder s f).2 = .fail) :
    ∃ p ∈ s.preorderCtrl f.id,
      (recvIndicatepktReorder (s.recvreorderCtrl p.1 p.2) f).2.2 = .fail := by
  cases hp : s.preorderCtrl f.id with
  | none => simp [indicateReorder, hp] at hfail
  | some p =>
    simp only [indicateReorder, hp] at hfail
    exact ⟨p, rfl, hfail⟩

theorem setIseq_sound {f : RecvFrame} {seqNum : ℕ} (hs : Sound all s held) :
    Sound all (setIseq s f seqNum) held := by
  simp only [setIseq]
  split
  · exact hs
  · exact hs.sameReorder rfl

/-! ## Conditions on the branch taken -/

/-- The frame that `recv_func_posthandle` offers to the reorder queue. -/
def offered (ctx : RxCtx) (s : RecvPriv) (f : RecvFrame) : Option RecvFrame :=
  if decryptor ctx.sec f then
    (chkDefrag ctx.micOk s (decrypted f)).2.bind (portctrl ctx.rxEnv)
  else none

/-- A reassembled frame is not refused by the window, and nothing is left pending
at a station that is gone. -/
def PosthandleOk (ctx : RxCtx) (s : RecvPriv) (f : RecvFrame) : Prop :=
  ∀ g ∈ offered ctx s f, ∀ p ∈ s.preorderCtrl g.id,
    let o := recvIndicatepktReorder (s.recvreorderCtrl p.1 p.2) g
    (o.2.2 = .fail → f.attrib.fragNum = 0) ∧ (p.1 ∈ s.staHash ∨ o.1.pending = [])

instance (ctx : RxCtx) (s : RecvPriv) (f : RecvFrame) : Decidable (PosthandleOk ctx s f) :=
  inferInstanceAs (Decidable (∀ g ∈ offered ctx s f, ∀ p ∈ s.preorderCtrl g.id, (_ → _) ∧ (_ ∨ _)))

theorem recvFuncPosthandle_sound (hall : all.Nodup) {ctx : RxCtx} {f : RecvFrame}
    (hs : Sound all s (f.id ::ₘ held)) (hok : PosthandleOk ctx s f) :
    Sound all (recvFuncPosthandle ctx s f) held := by
  by_cases hdec : decryptor ctx.sec f = false
  · simp only [recvFuncPosthandle, hdec, if_true]
    exact hs.free_held hall
  · have hdec' : decryptor ctx.sec f = true := Bool.not_eq_false _ ▸ hdec
    simp only [recvFuncPosthandle, if_neg hdec]
    simp only [PosthandleOk, offered, hdec', if_true] at hok
    have hd := chkDefrag_sound hall ctx.micOk (f := decrypted f) hs
    obtain ⟨hctrl, hhash⟩ := chkDefrag_keeps (s := s) ctx.micOk (decrypted f)
    have hreorder := chkDefrag_recvreorderCtrl hall ctx.micOk (f := decrypted f) hs
    cases hg : (chkDefrag ctx.micOk s (decrypted f)).2 with
    | none =>
      simp only [hg, Option.toList_none, idsOf_nil, zero_add] at hd ⊢
      exact hd
    | some g =>
      simp only [hg, Option.toList_some, idsOf_cons, idsOf_nil, Multiset.cons_add, zero_add]
        at hd ⊢
      cases hp : portctrl ctx.rxEnv g with
      | none => exact hd.free_held hall
      | some g' =>
        obtain rfl := portctrl_eq hp
        have hok := hok g' (by simp only [hg, Option.bind_some, hp, Option.mem_some_iff])
        rw [← hctrl] at hok
        have hr := indicateReorder_sound hall hd (by
          intro p hp
          rw [hhash, hreorder]
          exact (hok p hp).2)
        simp only
        cases hret : (indicateReorder (chkDefrag ctx.micOk s (decrypted f)).1 g').2 with
        | fail =>
          obtain ⟨p, hpre, hfail⟩ := indicateReorder_fail hret
          rw [hreorder] at hfail
          have hid : g'.id = f.id := chkDefrag_id (f := decrypted f) hg ((hok p hpre).1 hfail)
          rw [hret, hid] at hr
          exact Sound.free_held hall hr
        | handled =>
          rw [hret] at hr
          exact hr
        | success =>
          rw [hret] at hr
          exact (setIseq_sound hr).free_held hall

/-! ## Up to the checks -/

/-- A management frame is decrypted where it has to be, and `recvframe_chk_defrag`
either files it or hands it on. -/
def MgmtOk (ctx : RxCtx) (s : RecvPriv) : MgmtProtect → Prop
  | .fail => True
  | .decryptFail => False
  | .pass g =>
    if g.attrib.mfrag then (defragSta s g).isSome = true
    else g.attrib.fragNum = 0 ∧ (checkPrivacy ctx.micOk g).isSome = true

def MpOk (ctx : RxCtx) (f : RecvFrame) : Prop :=
  ctx.linked → ctx.rxBindicatePkt ∧
    ¬ (f.getFrameType = .data ∧ ctx.mpToEthhdr f ∧ ctx.cannotRun = false)

def PrehandleOk (ctx : RxCtx) (s : RecvPriv) (f : RecvFrame) : Prop :=
  if ctx.mpMode then MpOk ctx f
  else byteAt f.rxData 0 % 4 = 0 → f.getFrameType = .mgt →
    MgmtOk ctx s (validateMgmtProtect ctx (rtwGetStainfo s f.addr2) f)

instance (ctx : RxCtx) (s : RecvPriv) : ∀ m, Decidable (MgmtOk ctx s m)
  | .fail => inferInstanceAs (Decidable True)
  | .decryptFail => inferInstanceAs (Decidable False)
  | .pass g => inferInstanceAs (Decidable (if g.attrib.mfrag = true then _ else _ ∧ _))

instance (ctx : RxCtx) (f : RecvFrame) : Decidable (MpOk ctx f) :=
  inferInstanceAs (Decidable (_ → _ ∧ ¬ (_ ∧ _)))

instance (ctx : RxCtx) (s : RecvPriv) (f : RecvFrame) : Decidable (PrehandleOk ctx s f) :=
  inferInstanceAs (Decidable (if ctx.mpMode = true then _ else (_ → _ → _)))

theorem validateMgmtProtect_id {ctx : RxCtx} {psta : Option ℕ} {f g : RecvFrame}
    (hg : validateMgmtProtect ctx psta f = .pass g) : g.id = f.id := by
  cases psta with
  | none =>
    simp only [validateMgmtProtect] at hg
    split_ifs at hg <;> (obtain rfl := MgmtProtect.pass.inj hg; rfl)
  | some k =>
    simp only [validateMgmtProtect] at hg
    split_ifs at hg <;> (obtain rfl := MgmtProtect.pass.inj hg; rfl)

/-- The dispatcher's frame, or the fragment just filed, is freed by the caller. -/
theorem validateRecvMgntFrame_sound (hall : all.Nodup) {ctx : RxCtx} {f : RecvFrame}
    (hs : Sound all s (f.id ::ₘ held))
    (hok : MgmtOk ctx s (validateMgmtProtect ctx (rtwGetStainfo s f.addr2) f)) :
    Sound all (rtwFreeRecvframe (validateRecvMgntFrame ctx s f) f.id) held := by
  simp only [validateRecvMgntFrame]
  cases hprot : validateMgmtProtect ctx (rtwGetStainfo s f.addr2) f with
  | fail => exact hs.free_held hall
  | decryptFail =>
    rw [hprot] at hok
    exact hok.elim
  | pass g =>
    rw [hprot] at hok
    rw [← validateMgmtProtect_id hprot] at hs ⊢
    have hd := chkDefrag_sound hall ctx.micOk hs
    simp only [MgmtOk] at hok
    by_cases hmore : g.attrib.mfrag = true
    · rw [if_pos hmore] at hok
      obtain ⟨k, hk⟩ := Option.isSome_iff_exists.mp hok
      have hqueued := chkDefrag_mem_queued hall ctx.micOk hs hk hmore
      rw [chkDefrag_frame, recvframeChkDefrag_more hmore, Option.toList_none, idsOf_nil,
        zero_add] at hd
      have hfree := hd.free hall (Multiset.mem_add.mpr (.inl hqueued))
      have hself := filter_cons_ne (hs.nodup_held hall)
      rw [Multiset.filter_cons_of_neg (p := (· ≠ g.id)) held (not_not.mpr rfl)] at hself
      rwa [hself] at hfree
    · rw [if_neg hmore] at hok
      obtain ⟨g', hg'⟩ := Option.isSome_iff_exists.mp hok.2
      rw [chkDefrag_frame, recvframeChkDefrag_whole (Bool.eq_false_of_not_eq_true hmore) hok.1, hg',
        Option.toList_some, idsOf_cons, idsOf_nil, checkPrivacy_id hg', Multiset.cons_add,
        zero_add] at hd
      exact hd.free_held hall

theorem validateRecvCtrlFrame_sound {ctx : RxCtx} {f : RecvFrame} (hs : Sound all s held) :
    Sound all (validateRecvCtrlFrame ctx s f) held := by
  simp only [validateRecvCtrlFrame]
  cases rtwGetStainfo s f.addr2 with
  | none => split_ifs <;> exact hs
  | some k =>
    split_ifs
    · exact hs
    · exact hs.sameReorder rfl
    · exact hs

theorem validateRecvDataFrame_sound (ctx : RxCtx) (f : RecvFrame) (hs : Sound all s held) :
    Sound all (validateRecvDataFrame ctx s f).1 held := by
  simp only [validateRecvDataFrame]
  split
  · exact hs
  · exact ⟨hs.total, hs.counted, hs.once, hs.drained⟩

theorem mpRecvFrame_sound (hall : all.Nodup) {ctx : RxCtx} {f : RecvFrame}
    (hs : Sound all s (f.id ::ₘ held)) (hok : MpOk ctx f) :
    Sound all (mpRecvFrame ctx s f) held := by
  have hfree := hs.free_held hall
  by_cases hlinked : ctx.linked = true
  · obtain ⟨hbind, hdata⟩ := hok hlinked
    simp only [mpRecvFrame, hlinked, hbind, hdata, if_true, if_false, Bool.true_eq_false]
    exact hfree
  · simp only [mpRecvFrame, hlinked]
    exact hfree

theorem recvFuncPrehandle_sound (hall : all.Nodup) {ctx : RxCtx} {f : RecvFrame}
    (hs : Sound all s (f.id ::ₘ held)) (hok : PrehandleOk ctx s f) :
    Sound all (recvFuncPrehandle ctx s f).1
      (if (recvFuncPrehandle ctx s f).2 = .success then f.id ::ₘ held else held) := by
  by_cases hmp : ctx.mpMode = true
  · simp only [PrehandleOk, if_pos hmp] at hok
    simp only [recvFuncPrehandle, if_pos hmp]
    exact mpRecvFrame_sound hall hs hok
  · simp only [PrehandleOk, if_neg hmp] at hok
    simp only [recvFuncPrehandle, if_neg hmp, validateRecvFrame]
    by_cases hver : byteAt f.rxData 0 % 4 ≠ 0
    · simp only [if_pos hver]
      exact hs.free_held hall
    · simp only [if_neg hver]
      cases htype : f.getFrameType with
      | mgt => exact validateRecvMgntFrame_sound hall hs (hok (not_not.mp hver) htype)
      | ctrl => exact (validateRecvCtrlFrame_sound hs).free_held hall
      | reserved => exact hs.free_held hall
      | data =>
        have hd := validateRecvDataFrame_sound ctx f hs
        simp only
        by_cases hret : (validateRecvDataFrame ctx s f).2 = .success
        · simp only [hret, ne_eq, not_true_eq_false, if_false, if_true]
          exact hd
        · simp only [if_pos hret, if_neg hret]
          exact hd.free_held hall

/-! ## `recv_func` -/

def DequeueOk (ctx : RxCtx) (s : RecvPriv) : Prop :=
  ∀ f ∈ s.ucSwdecPendingQueue.head?,
    PosthandleOk ctx { s with ucSwdecPendingQueue := s.ucSwdecPendingQueue.tail } f

def DequeueLoopOk (ctx : RxCtx) : ℕ → RecvPriv → Prop
  | 0, _ => True
  | n + 1, s => DequeueOk ctx s ∧ DequeueLoopOk ctx n (dequeueSwdec ctx s)

def DequeueAllOk (ctx : RxCtx) (s : RecvPriv) : Prop :=
  ctx.stationState && ctx.busetkipkey → DequeueLoopOk ctx s.ucSwdecPendingQueue.length s

def AfterPrehandleOk (ctx : RxCtx) (s : RecvPriv) (f : RecvFrame) : Prop :=
  if toSwdecQueue ctx f then
    s.freeRecvQueue.cnt < ((nrRecvframe / 4 : ℕ) : ℤ) →
      DequeueOk ctx { s with ucSwdecPendingQueue := s.ucSwdecPendingQueue ++ [f] }
  else PosthandleOk ctx s f

def RecvFuncOk (ctx : RxCtx) (s : RecvPriv) (f : RecvFrame) : Prop :=
  ctx.monitorState = false →
    DequeueAllOk ctx s ∧ PrehandleOk ctx (dequeueAll ctx s) f ∧
      let r := recvFuncPrehandle ctx (dequeueAll ctx s) f
      r.2 = .success → AfterPrehandleOk ctx r.1 f

instance (ctx : RxCtx) (s : RecvPriv) : Decidable (DequeueOk ctx s) :=
  inferInstanceAs (Decidable (∀ f ∈ s.ucSwdecPendingQueue.head?, PosthandleOk ctx _ f))

instance (ctx : RxCtx) : ∀ n s, Decidable (DequeueLoopOk ctx n s)
  | 0, _ => inferInstanceAs (Decidable True)
  | n + 1, s =>
    have := instDecidableDequeueLoopOk ctx n (dequeueSwdec ctx s)
    inferInstanceAs (Decidable (_ ∧ _))

instance (ctx : RxCtx) (s : RecvPriv) : Decidable (DequeueAllOk ctx s) :=
  inferInstanceAs (Decidable (_ → _))

instance (ctx : RxCtx) (s : RecvPriv) (f : RecvFrame) : Decidable (AfterPrehandleOk ctx s f) :=
  inferInstanceAs (Decidable (if toSwdecQueue ctx f = true then (_ → _) else _))

instance (ctx : RxCtx) (s : RecvPriv) (f : RecvFrame) : Decidable (RecvFuncOk ctx s f) :=
  inferInstanceAs (Decidable (_ → _ ∧ _ ∧ (_ → _)))

theorem dequeueSwdec_sound (hall : all.Nodup) {ctx : RxCtx} (hs : Sound all s held)
    (hok : DequeueOk ctx s) : Sound all (dequeueSwdec ctx s) held := by
  simp only [dequeueSwdec]
  cases hq : s.ucSwdecPendingQueue with
  | nil => exact hs
  | cons f q =>
    simp only [DequeueOk, hq, List.head?_cons, List.tail_cons] at hok
    refine recvFuncPosthandle_sound hall ?_ (hok f rfl)
    refine hs.of_queued ?_ rfl rfl hs.drained
    simp only [queued, hq, idsOf_cons, Multiset.cons_add, Multiset.add_cons]
    rfl

theorem dequeueLoop_sound (hall : all.Nodup) {ctx : RxCtx} {n : ℕ} (hs : Sound all s held)
    (hok : DequeueLoopOk ctx n s) : Sound all (dequeueLoop ctx n s) held := by
  induction n generalizing s with
  | zero => exact hs
  | succ n ih => exact ih (dequeueSwdec_sound hall hs hok.1) hok.2

theorem dequeueAll_sound (hall : all.Nodup) {ctx : RxCtx} (hs : Sound all s held)
    (hok : DequeueAllOk ctx s) : Sound all (dequeueAll ctx s) held := by
  simp only [dequeueAll]
  split_ifs with hset
  · exact dequeueLoop_sound hall hs (hok hset)
  · exact hs

theorem afterPrehandle_sound (hall : all.Nodup) {ctx : RxCtx} {f : RecvFrame}
    (hs : Sound all s (f.id ::ₘ held)) (hok : AfterPrehandleOk ctx s f) :
    Sound all (afterPrehandle ctx s f) held := by
  simp only [afterPrehandle]
  simp only [AfterPrehandleOk] at hok
  by_cases hswdec : toSwdecQueue ctx f = true
  · rw [if_pos hswdec] at hok ⊢
    have hput : Sound all { s with ucSwdecPendingQueue := s.ucSwdecPendingQueue ++ [f] } held := by
      refine hs.of_queued ?_ rfl rfl hs.drained
      have hsum : ∀ m n : Multiset ℕ, m + (f.id ::ₘ 0) + n + held = m + n + f.id ::ₘ held := by
        intro m n
        rw [← Multiset.singleton_add, ← Multiset.singleton_add]
        abel
      simp only [queued, idsOf_append, idsOf_cons, idsOf_nil]
      exact hsum _ _
    split_ifs with hfew
    · exact dequeueSwdec_sound hall hput (hok hfew)
    · exact hput
  · rw [if_neg hswdec] at hok ⊢
    exact recvFuncPosthandle_sound hall hs hok

theorem recvFunc_sound (hall : all.Nodup) {ctx : RxCtx} {f : RecvFrame}
    (hs : Sound all s (f.id ::ₘ held)) (hok : RecvFuncOk ctx s f) :
    Sound all (recvFunc ctx s f) held := by
  by_cases hmon : ctx.monitorState = true
  · simp only [recvFunc, if_pos hmon, recvFrameMonitor, ite_self]
    exact hs.free_held hall
  · obtain ⟨hdeq, hpre, hafter⟩ := hok (Bool.eq_false_of_not_eq_true hmon)
    have hp := recvFuncPrehandle_sound hall (dequeueAll_sound hall hs hdeq) hpre
    simp only [recvFunc, if_neg hmon]
    by_cases hret : (recvFuncPrehandle ctx (dequeueAll ctx s) f).2 = .success
    · rw [if_pos hret] at hp ⊢
      exact afterPrehandle_sound hall hp (hafter hret)
    · rw [if_neg hret] at hp ⊢
      exact hp

/-! ## Stations and timers -/

theorem pending_freeQueue {k : ℕ} {tid : Fin 16} (q : List RecvFrame)
    (hpend : (s.recvreorderCtrl k tid).pending = []) :
    ((rtwFreeRecvframeQueue s q).recvreorderCtrl k tid).pending = [] := by
  induction q generalizing s with
  | nil => exact hpend
  | cons f q ih =>
    refine ih ?_
    simp only [rtwFreeRecvframe, unlink, hpend]
    rfl

theorem defragQ_freeQueue {k : ℕ} (q : List RecvFrame) (hdefrag : s.defragQ k = []) :
    (rtwFreeRecvframeQueue s q).defragQ k = [] := by
  induction q generalizing s with
  | nil => exact hdefrag
  | cons f q ih =>
    refine ih ?_
    simp only [rtwFreeRecvframe, unlink, hdefrag]
    rfl

theorem drainReorder_sound (hall : all.Nodup) {k : ℕ} (tid : Fin 16) (hs : Sound all s held) :
    Sound all (drainReorder s k tid) held := by
  refine Sound.freeQueue hall (hs.setReorderCtrl (.inr rfl) ?_)
  rw [idsOf_nil, zero_add]

theorem drainReorder_pending (s : RecvPriv) (k : ℕ) (tid t : Fin 16)
    (ht : t = tid ∨ (s.recvreorderCtrl k t).pending = []) :
    ((drainReorder s k tid).recvreorderCtrl k t).pending = [] := by
  refine pending_freeQueue _ ?_
  by_cases htid : t = tid
  · simp only [setReorderCtrl, Function.update_self, htid]
  · simp only [setReorderCtrl, Function.update_self, Function.update_of_ne htid]
    exact ht.resolve_left htid

theorem freeQueue_setStaHash (h : List ℕ) (q : List RecvFrame) :
    rtwFreeRecvframeQueue (setStaHash s h) q = setStaHash (rtwFreeRecvframeQueue s q) h := by
  induction q generalizing s with
  | nil => rfl
  | cons f q ih => exact ih (s := rtwFreeRecvframe s f.id)

theorem drainReorder_setStaHash (h : List ℕ) (k : ℕ) (tid : Fin 16) :
    drainReorder (setStaHash s h) k tid = setStaHash (drainReorder s k tid) h := by
  simp only [drainReorder]
  exact freeQueue_setStaHash (s := setReorderCtrl s k tid _) h _

theorem drainAll_setStaHash (h : List ℕ) (k : ℕ) (tids : List (Fin 16)) :
    drainAll (setStaHash s h) k tids = setStaHash (drainAll s k tids) h := by
  induction tids generalizing s with
  | nil => rfl
  | cons tid tids ih =>
    simp only [drainAll, List.foldl_cons, drainReorder_setStaHash]
    exact ih

theorem drainAll_sound (hall : all.Nodup) (k : ℕ) (tids : List (Fin 16)) (hs : Sound all s held) :
    Sound all (drainAll s k tids) held := by
  induction tids generalizing s with
  | nil => exact hs
  | cons tid tids ih => exact ih (drainReorder_sound hall tid hs)

theorem drainAll_pending {k : ℕ} {tids : List (Fin 16)} {t : Fin 16}
    (ht : t ∈ tids ∨ (s.recvreorderCtrl k t).pending = []) :
    ((drainAll s k tids).recvreorderCtrl k t).pending = [] := by
  induction tids generalizing s with
  | nil => exact ht.resolve_left (List.not_mem_nil)
  | cons tid tids ih =>
    rw [List.mem_cons, or_assoc] at ht
    refine ih ?_
    rcases ht with ht | ht | ht
    · exact .inr (drainReorder_pending s k tid t (.inl ht))
    · exact .inl ht
    · exact .inr (drainReorder_pending s k tid t (.inr ht))

theorem drainAll_defragQ {k : ℕ} {tids : List (Fin 16)} (hdefrag : s.defragQ k = []) :
    (drainAll s k tids).defragQ k = [] := by
  induction tids generalizing s with
  | nil => exact hdefrag
  | cons tid tids ih => exact ih (defragQ_freeQueue _ hdefrag)

theorem drainAll_staHash {k : ℕ} {tids : List (Fin 16)} :
    (drainAll s k tids).staHash = s.staHash := by
  induction tids generalizing s with
  | nil => rfl
  | cons tid tids ih => exact ih.trans (rtwFreeRecvframeQueue_staHash _)

theorem removeSta_sound {k : ℕ} (hs : Sound all s held) (hdefrag : s.defragQ k = [])
    (hpend : ∀ tid, (s.recvreorderCtrl k tid).pending = []) :
    Sound all (setStaHash s (s.staHash.filter (· ≠ k))) held := by
  have hempty : heldBySta s k = 0 := by
    simp only [heldBySta, hdefrag, hpend, idsOf_nil, zero_add, Finset.sum_const_zero]
  have hsum : ∑ j ∈ (s.staHash.filter (· ≠ k)).toFinset, heldBySta s j =
      ∑ j ∈ s.staHash.toFinset, heldBySta s j := by
    rw [List.toFinset_filter]
    refine Finset.sum_filter_of_ne ?_
    intro j _ hj
    refine decide_eq_true ?_
    rintro rfl
    exact hj hempty
  refine hs.of_queued ?_ rfl rfl ?_
  · exact congrArg (_ + · + held) hsum
  · intro j hj tid
    by_cases hjk : j = k
    · exact hjk ▸ hpend tid
    · refine hs.drained j ?_ tid
      intro hmem
      exact hj (List.mem_filter.mpr ⟨hmem, decide_eq_true hjk⟩)

theorem rtwFreeStainfo_sound (hall : all.Nodup) {k : ℕ} (hs : Sound all s held)
    (hdefrag : k ∈ s.staHash → s.defragQ k = []) : Sound all (rtwFreeStainfo s k) held := by
  by_cases hk : k ∈ s.staHash
  · have hdrain := drainAll_sound hall k (List.finRange 16) hs
    have hremove := removeSta_sound hdrain (drainAll_defragQ (hdefrag hk))
      (fun tid => drainAll_pending (.inl (List.mem_finRange tid)))
    rw [drainAll_staHash] at hremove
    rw [rtwFreeStainfo, if_pos hk, drainAll_setStaHash]
    exact hremove
  · rw [rtwFreeStainfo, if_neg hk]
    exact hs

theorem rtwAllocStainfo_sound {k : ℕ} {hwaddr : MacAddr} (hs : Sound all s held) :
    Sound all (rtwAllocStainfo s k hwaddr) held := by
  by_cases hk : k ∈ s.staHash
  · rw [rtwAllocStainfo, if_pos hk]
    exact hs
  · rw [rtwAllocStainfo, if_neg hk]
    refine hs.of_queued ?_ rfl rfl ?_
    · refine congrArg (· + held) (congrArg (idsOf s.ucSwdecPendingQueue + ·) ?_)
      have hinsert : (s.staHash ++ [k]).toFinset = insert k s.staHash.toFinset := by
        ext j
        simp only [List.mem_toFinset, List.mem_append, List.mem_singleton, Finset.mem_insert]
        exact or_comm
      rw [hinsert, Finset.sum_insert (fun h => hk (List.mem_toFinset.mp h))]
      simp only [heldBySta, Function.update_self, idsOf_nil, zero_add, Finset.sum_const_zero]
      refine Finset.sum_congr rfl ?_
      intro j hj
      have hne : j ≠ k := ne_of_mem_of_not_mem (List.mem_toFinset.mp hj) hk
      simp only [Function.update_of_ne hne]
    · intro j hj tid
      have hne : j ≠ k := by
        rintro rfl
        exact hj (List.mem_append_right _ (List.mem_singleton_self j))
      simp only [Function.update_of_ne hne]
      exact hs.drained j (fun h => hj (List.mem_append_left _ h)) tid

theorem reorderTimeout_sound (hall : all.Nodup) {k : ℕ} {tid : Fin 16} {cannotRun : Bool}
    (hs : Sound all s held) : Sound all (reorderTimeout s k tid cannotRun) held := by
  simp only [reorderTimeout]
  split_ifs
  · have happ := rtwReorderingCtrlTimeoutHandler_append cannotRun (s.recvreorderCtrl k tid)
    refine Sound.freeQueue hall (hs.setReorderCtrl ?_ ?_)
    · by_cases hk : k ∈ s.staHash
      · exact .inl hk
      · rw [hs.drained k hk tid] at happ
        exact .inr (List.append_eq_nil_iff.mp happ).2
    · rw [← happ, idsOf_append]
      abel
  · exact hs

theorem setSession_sound {hwaddr : MacAddr} {tid : Fin 16} {c : RecvReorderCtrl}
    (hs : Sound all s held) : Sound all (setSession s hwaddr tid c) held := by
  simp only [setSession]
  split
  · exact hs
  · exact hs.sameReorder rfl

theorem rtwFreeUcSwdecPendingQueue_sound (hall : all.Nodup) (hs : Sound all s held) :
    Sound all (rtwFreeUcSwdecPendingQueue s) held := by
  refine Sound.freeQueue hall (hs.of_queued ?_ rfl rfl hs.drained)
  rw [← add_assoc]
  refine congrArg (· + held) ?_
  simp only [queued, idsOf_nil, zero_add]
  exact add_comm _ _

/-! ## Runs -/

/-- The condition under which an event leaves each frame in one place. -/
def StepOk (s : RecvPriv) : RxEvent → Prop
  | .frame ctx f => ∀ p ∈ s.freeRecvQueue.alloc,
    RecvFuncOk ctx { s with freeRecvQueue := p.2 } { f with id := p.1 }
  | .freeStainfo k => k ∈ s.staHash → s.defragQ k = []
  | _ => True

instance (s : RecvPriv) : ∀ e, Decidable (StepOk s e)
  | .frame ctx _ => inferInstanceAs (Decidable (∀ p ∈ s.freeRecvQueue.alloc, RecvFuncOk ctx _ _))
  | .freeStainfo k => inferInstanceAs (Decidable (k ∈ s.staHash → s.defragQ k = []))
  | .timeout .. | .allocStainfo .. | .session .. | .freeUcSwdec => inferInstanceAs (Decidable True)

theorem alloc_sound {i : ℕ} {q : FreeList ℕ} (hs : Sound all s held)
    (hq : s.freeRecvQueue.alloc = some (i, q)) :
    Sound all { s with freeRecvQueue := q } (i ::ₘ held) := by
  refine ⟨?_, FreeList.alloc_counted hs.counted hq, hs.once, hs.drained⟩
  rw [← hs.total, places, places, FreeList.alloc_cells hq, Multiset.add_cons, Multiset.cons_add,
    Multiset.cons_add]
  rfl

theorem rxStep_sound (hall : all.Nodup) (hs : Sound all s held) {e : RxEvent}
    (hok : StepOk s e) : Sound all (rxStep s e) held := by
  cases e with
  | frame ctx f =>
    simp only [rxStep]
    cases hq : s.freeRecvQueue.alloc with
    | none => exact hs
    | some p => exact recvFunc_sound hall (alloc_sound hs hq) (hok p hq)
  | timeout k tid cannotRun => exact reorderTimeout_sound hall hs
  | freeStainfo k => exact rtwFreeStainfo_sound hall hs hok
  | allocStainfo k hwaddr => exact rtwAllocStainfo_sound hs
  | session hwaddr tid c => exact setSession_sound hs
  | freeUcSwdec => exact rtwFreeUcSwdecPendingQueue_sound hall hs

/-- Each of the `NR_RECVFRAME` frames is in one place, none was freed twice, and
the count of the free queue is right. -/
def Pooled (s : RecvPriv) : Prop :=
  places s = Multiset.range nrRecvframe ∧ s.freedTwice = false ∧ s.freeRecvQueue.Counted

theorem initRecvPriv_sound : Sound (Multiset.range nrRecvframe) initRecvPriv 0 := by
  refine ⟨?_, ?_, rfl, fun _ _ _ => rfl⟩
  · have hq : queued initRecvPriv = 0 := by
      simp only [queued, initRecvPriv, idsOf_nil, List.toFinset_nil, Finset.sum_empty, add_zero]
    rw [places, hq, add_zero, add_zero]
    simp only [initRecvPriv, Multiset.coe_range]
  · simp only [FreeList.Counted, initRecvPriv, List.length_range]

def plainCtx : RxCtx where
  sec := { aesDecrypt := fun _ => true, tkipDecrypt := fun _ => true }
  rxEnv := { auth8021X := false }

def recvd (fc : UInt8) (seqNum : Fin 4096) (fragNum : Fin 16) (mfrag : Bool) : RecvFrame where
  attrib := { qos := true, seqNum := seqNum, fragNum := fragNum, mfrag := mfrag }
  rxData := fc :: List.replicate 25 0
  slack := List.replicate 64 0

theorem run_pooled (es : List RxEvent) (hes : Along rxStep StepOk initRecvPriv es) :
    Pooled (run rxStep initRecvPriv es) := by
  have hrun := run_spec StepOk (fun s => Sound (Multiset.range nrRecvframe) s 0)
    (fun s e hs hok => rxStep_sound (Multiset.nodup_range _) hs hok) initRecvPriv_sound hes
  exact ⟨(add_zero _).symm.trans hrun.total, hrun.once, hrun.counted⟩

def noAddr : MacAddr := Vector.replicate 6 0

def withSession : List RxEvent :=
  [.allocStainfo 0 noAddr, .session noAddr 0 { enable := true, indicateSeq := 10 }]

/-- Two fragments of number 10 are joined and pass; number 12 is filed and leaves
on the timeout; the station goes. -/
def soundRun : List RxEvent :=
  withSession ++
    ([.frame plainCtx (recvd 8 10 0 true), .frame plainCtx (recvd 8 10 1 false),
      .frame plainCtx (recvd 8 12 0 false), .frame plainCtx (recvd 0xd0 1 0 false),
      .timeout 0 0 false, .freeStainfo 0] : List RxEvent)

theorem run_pooled_eight : Pooled (run rxStep initRecvPriv soundRun) :=
  run_pooled soundRun (by decide +kernel)

instance (s : RecvPriv) : Decidable (Pooled s) := inferInstanceAs (Decidable (_ ∧ _ ∧ _ = _))

def refusedRun : List RxEvent :=
  withSession ++
    ([.frame plainCtx (recvd 8 5 0 true), .frame plainCtx (recvd 8 5 1 false)] : List RxEvent)

def mgmtRun : List RxEvent := [.frame plainCtx (recvd 0xd0 5 1 false)]

def testFrameRun : List RxEvent :=
  [.frame { plainCtx with mpMode := true, linked := true } (recvd 8 5 0 false)]

def removedRun : List RxEvent :=
  [.allocStainfo 0 noAddr, .frame plainCtx (recvd 8 5 0 true), .freeStainfo 0]

def awaitsKey : RxCtx := { plainCtx with stationState := true, authModeWpaPsk := true }

/-- A frame waits for the key while its station goes, then for its predecessor. -/
def strandedRun : List RxEvent :=
  withSession ++
    ([.frame awaitsKey { recvd 8 12 0 false with
        attrib := { (recvd 8 12 0 false).attrib with encrypt := .aes } },
      .freeStainfo 0, .frame { awaitsKey with busetkipkey := true } (recvd 8 13 0 false)] :
        List RxEvent)

theorem broken_runs :
    ¬ Pooled (run rxStep initRecvPriv refusedRun) ∧ ¬ Pooled (run rxStep initRecvPriv mgmtRun) ∧
      ¬ Pooled (run rxStep initRecvPriv testFrameRun) ∧
      ¬ Pooled (run rxStep initRecvPriv removedRun) ∧
      ¬ Pooled (run rxStep initRecvPriv strandedRun) := by
  decide +kernel

end Rtl8189.RecvConserve
