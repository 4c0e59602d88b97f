import Mathlib.Data.List.Sublists
import Rtl8189.EventRun
import Rtl8189.RecvFrame

/-!
# Reassembly of fragmented frames

`recvframe_chk_defrag` files a fragment on the defrag queue of its station, and
`recvframe_defrag` joins the queue when the last fragment comes. The join tests
fragment numbers only: fragments of different MSDUs, of different types and of
different protection are joined alike. What is handed up is still the
concatenation of consecutively numbered fragments in the order of arrival.
-/
namespace Rtl8189.Defrag

open EventRun

/-- One round of the copy loop of `recvframe_defrag`. A move that does not fit
is refused and its result ignored. -/
def appendFragment (prframe pnextrframe : RecvFrame) : RecvFrame :=
  let next := (pnextrframe.recvframePull
    (pnextrframe.attrib.hdrlen + pnextrframe.attrib.ivLen)).getD pnextrframe
  let head := (prframe.recvframePullTail prframe.attrib.icvLen).getD prframe
  let head := head.copyAndPut next.rxData
  { head with attrib := { head.attrib with icvLen := pnextrframe.attrib.icvLen } }

def defragLoop (prframe : RecvFrame) (curfragnum : ℕ) : List RecvFrame → Option RecvFrame
  | [] => some prframe
  | f :: l =>
    if curfragnum ≠ f.attrib.fragNum then none
    else defragLoop (appendFragment prframe f) (curfragnum + 1) l

/-- The frame handed on, the defrag queue left behind, and the frames given to
`rtw_free_recvframe` on the way. -/
structure Defragged where
  frame : Option RecvFrame
  queue : List RecvFrame
  freed : List RecvFrame

def recvframeDefrag : List RecvFrame → Defragged
  | [] => ⟨none, [], []⟩
  | f :: l =>
    if 0 ≠ f.attrib.fragNum.val then ⟨none, [], f :: l⟩
    else match defragLoop f 1 l with
      | none => ⟨none, [], f :: l⟩
      | some g => ⟨some g, [], l⟩

/-- `recvframe_chkmic`, with the comparison of the Michael code as `micOk`; the
code is cut off the tail when it agrees. -/
def recvframeChkmic (micOk : RecvFrame → Bool) (f : RecvFrame) : Option RecvFrame :=
  if f.attrib.encrypt = .tkip then
    if micOk f then some ((f.recvframePullTail 8).getD f) else none
  else some f

def checkPrivacy (micOk : RecvFrame → Bool) (f : RecvFrame) : Option RecvFrame :=
  if f.attrib.privacy then recvframeChkmic micOk f else some f

/-- The end of `recvframe_chk_defrag`. -/
def checkDefragged (micOk : RecvFrame → Bool) (d : Defragged) : Defragged :=
  match d.frame with
  | none => d
  | some g =>
    match checkPrivacy micOk g with
    | some g' => { d with frame := some g' }
    | none => { d with frame := none, freed := d.freed ++ [g] }

/-- `recvframe_chk_defrag` with the defrag queue it looked up, if any. -/
def recvframeChkDefrag (micOk : RecvFrame → Bool) (pdefragQ : Option (List RecvFrame))
    (f : RecvFrame) : Defragged :=
  checkDefragged micOk <|
    if f.attrib.mfrag then
      match pdefragQ with
      | none => ⟨none, [], [f]⟩
      | some q => if f.attrib.fragNum = 0 then ⟨none, [f], q⟩ else ⟨none, q ++ [f], []⟩
    else if f.attrib.fragNum ≠ 0 then
      match pdefragQ with
      | none => ⟨none, [], [f]⟩
      | some q => recvframeDefrag (q ++ [f])
    else ⟨some f, pdefragQ.getD [], []⟩

theorem appendFragment_id (h f : RecvFrame) : (appendFragment h f).id = h.id := by
  have htail : ((h.recvframePullTail h.attrib.icvLen).getD h).id = h.id := by
    simp only [RecvFrame.recvframePullTail]
    split_ifs <;> rfl
  simp only [appendFragment, RecvFrame.copyAndPut]
  split_ifs <;> exact htail

theorem defragLoop_id {h g : RecvFrame} {n : ℕ} {l : List RecvFrame}
    (hg : defragLoop h n l = some g) : g.id = h.id := by
  induction l generalizing h n with
  | nil => rw [Option.some.inj hg]
  | cons f l ih =>
    simp only [defragLoop] at hg
    split_ifs at hg
    exact (ih hg).trans (appendFragment_id h f)

theorem checkPrivacy_id {micOk : RecvFrame → Bool} {f g : RecvFrame}
    (hg : checkPrivacy micOk f = some g) : g.id = f.id := by
  have hcut : ((f.recvframePullTail 8).getD f).id = f.id := by
    simp only [RecvFrame.recvframePullTail]
    split_ifs <;> rfl
  simp only [checkPrivacy, recvframeChkmic] at hg
  split_ifs at hg
  · rw [← Option.some.inj hg, hcut]
  · rw [Option.some.inj hg]
  · rw [Option.some.inj hg]

def Defragged.ids (d : Defragged) : List ℕ :=
  (d.queue ++ d.freed ++ d.frame.toList).map RecvFrame.id

theorem recvframeDefrag_ids (fs : List RecvFrame) :
    (recvframeDefrag fs).ids.Perm (fs.map RecvFrame.id) := by
  cases fs with
  | nil => exact .refl _
  | cons f l =>
    simp only [recvframeDefrag]
    split_ifs
    · simp [Defragged.ids]
    · split
      · simp [Defragged.ids]
      · next g hg =>
        simp only [Defragged.ids, List.nil_append, Option.toList_some, List.map_append,
          List.map_cons, List.map_nil, defragLoop_id hg]
        exact List.perm_append_singleton _ _

theorem checkDefragged_ids (micOk : RecvFrame → Bool) (d : Defragged) :
    (checkDefragged micOk d).ids.Perm d.ids := by
  simp only [checkDefragged]
  cases hd : d.frame with
  | none => exact .refl _
  | some g =>
    cases hc : checkPrivacy micOk g with
    | none => simp [Defragged.ids, hd, hc]
    | some g' => simp [Defragged.ids, hd, hc, checkPrivacy_id hc]

theorem checkDefragged_frame {micOk : RecvFrame → Bool} {d : Defragged} {g : RecvFrame}
    (hg : (checkDefragged micOk d).frame = some g) :
    ∃ g₀, d.frame = some g₀ ∧ checkPrivacy micOk g₀ = some g := by
  simp only [checkDefragged] at hg
  cases hd : d.frame with
  | none => simp [hd] at hg
  | some g₀ =>
    simp only [hd] at hg
    cases hc : checkPrivacy micOk g₀ with
    | none => simp [hc] at hg
    | some g' =>
      simp only [hc] at hg
      exact ⟨g₀, rfl, hc.trans hg⟩

theorem checkDefragged_queue (micOk : RecvFrame → Bool) (d : Defragged) :
    (checkDefragged micOk d).queue = d.queue := by
  simp only [checkDefragged]
  split
  · rfl
  · split <;> rfl

theorem recvframeChkDefrag_ids (micOk : RecvFrame → Bool) (pdefragQ : Option (List RecvFrame))
    (f : RecvFrame) :
    (recvframeChkDefrag micOk pdefragQ f).ids.Perm
      (f.id :: (pdefragQ.getD []).map RecvFrame.id) := by
  refine (checkDefragged_ids micOk _).trans ?_
  have hlast : ∀ q : List RecvFrame,
      ((q ++ [f]).map RecvFrame.id).Perm (f.id :: q.map RecvFrame.id) := by
    intro q
    rw [List.map_append]
    exact List.perm_append_singleton _ _
  by_cases hmore : f.attrib.mfrag = true
  · rw [if_pos hmore]
    cases pdefragQ with
    | none => exact .refl _
    | some q =>
      by_cases hzero : f.attrib.fragNum = 0
      · simp only [hzero, if_true, Defragged.ids, List.append_nil, Option.toList_none]
        exact .refl _
      · simp only [hzero, if_false, Defragged.ids, List.append_nil, Option.toList_none]
        exact hlast q
  · rw [if_neg hmore]
    by_cases hlastFrag : f.attrib.fragNum ≠ 0
    · rw [if_pos hlastFrag]
      cases pdefragQ with
      | none => exact .refl _
      | some q => exact (recvframeDefrag_ids _).trans (hlast q)
    · rw [if_neg hlastFrag]
      simp only [Defragged.ids, List.append_nil, Option.toList_some]
      exact hlast _

theorem recvframeChkDefrag_none_queue (micOk : RecvFrame → Bool) (f : RecvFrame) :
    (recvframeChkDefrag micOk none f).queue = [] := by
  simp only [recvframeChkDefrag, checkDefragged_queue]
  split_ifs <;> rfl

theorem recvframeChkDefrag_more {micOk : RecvFrame → Bool} {pdefragQ : Option (List RecvFrame)}
    {f : RecvFrame} (hmore : f.attrib.mfrag = true) :
    (recvframeChkDefrag micOk pdefragQ f).frame = none := by
  simp only [recvframeChkDefrag, if_pos hmore]
  cases pdefragQ with
  | none => rfl
  | some q =>
    simp only
    split_ifs <;> rfl

theorem recvframeChkDefrag_whole {micOk : RecvFrame → Bool} {pdefragQ : Option (List RecvFrame)}
    {f : RecvFrame} (hmore : f.attrib.mfrag = false) (hzero : f.attrib.fragNum = 0) :
    (recvframeChkDefrag micOk pdefragQ f).frame = checkPrivacy micOk f := by
  simp only [recvframeChkDefrag, checkDefragged, hmore, hzero, ne_eq, not_true_eq_false, if_false,
    Bool.false_eq_true]
  cases checkPrivacy micOk f <;> rfl

def body (f : RecvFrame) : List UInt8 :=
  (f.rxData.drop (f.attrib.hdrlen + f.attrib.ivLen)).take
    (f.len - (f.attrib.hdrlen + f.attrib.ivLen) - f.attrib.icvLen)

def LongEnough (f : RecvFrame) : Prop :=
  f.attrib.hdrlen + f.attrib.ivLen + f.attrib.icvLen ≤ f.len

/-- Each further fragment fits behind what is already joined. -/
def Fits (room icvLen : ℕ) : List RecvFrame → Prop
  | [] => True
  | f :: l =>
    f.len - (f.attrib.hdrlen + f.attrib.ivLen) ≤ room + icvLen ∧
      Fits (room + icvLen - (f.len - (f.attrib.hdrlen + f.attrib.ivLen))) f.attrib.icvLen l

theorem appendFragment_spec {h f : RecvFrame} (hh : LongEnough h) (hf : LongEnough f)
    (hfits : f.len - (f.attrib.hdrlen + f.attrib.ivLen) ≤ h.slack.length + h.attrib.icvLen) :
    let g := appendFragment h f
    LongEnough g ∧ body g = body h ++ body f ∧
      g.attrib = { h.attrib with icvLen := f.attrib.icvLen } ∧
      g.slack.length =
        h.slack.length + h.attrib.icvLen - (f.len - (f.attrib.hdrlen + f.attrib.ivLen)) := by
  simp only [LongEnough, RecvFrame.len] at hh hf hfits
  have h1 : f.attrib.hdrlen + f.attrib.ivLen ≤ f.rxData.length := by omega
  have h2 : h.attrib.icvLen ≤ h.rxData.length := by omega
  have hroom : f.rxData.length - (f.attrib.hdrlen + f.attrib.ivLen) ≤
      h.rxData.length - (h.rxData.length - h.attrib.icvLen) + h.slack.length := by omega
  have hkeep : h.attrib.hdrlen + h.attrib.ivLen ≤
      (h.rxData.take (h.rxData.length - h.attrib.icvLen)).length := by
    rw [List.length_take]
    omega
  simp only [appendFragment, RecvFrame.recvframePull, RecvFrame.recvframePullTail,
    RecvFrame.copyAndPut, RecvFrame.len, h1, h2, if_true, Option.getD_some, List.length_drop,
    List.length_append, hroom]
  refine ⟨?_, ?_, trivial, ?_⟩
  · simp only [LongEnough, RecvFrame.len, List.length_append, List.length_take, List.length_drop]
    omega
  · simp only [body, RecvFrame.len, List.length_append, List.length_take, List.length_drop]
    rw [List.drop_append_of_le_length hkeep, List.drop_take, List.take_append, List.take_take,
      List.length_take, List.length_drop]
    congr 2 <;> omega
  · omega

theorem defragLoop_spec {h g : RecvFrame} {l : List RecvFrame} {n : ℕ}
    (hloop : defragLoop h n l = some g) (hh : LongEnough h) (hl : ∀ f ∈ l, LongEnough f)
    (hfits : Fits h.slack.length h.attrib.icvLen l) :
    LongEnough g ∧ body g = body h ++ (l.map body).flatten ∧
      ∃ icv, g.attrib = { h.attrib with icvLen := icv } := by
  induction l generalizing h n with
  | nil =>
    obtain rfl := Option.some.inj hloop
    exact ⟨hh, by simp, _, rfl⟩
  | cons f l ih =>
    simp only [defragLoop] at hloop
    split_ifs at hloop with hn
    obtain ⟨hlong, hbody, hattr, hroom⟩ :=
      appendFragment_spec hh (hl f List.mem_cons_self) hfits.1
    have hrest : Fits (appendFragment h f).slack.length (appendFragment h f).attrib.icvLen l := by
      rw [hroom, hattr]
      exact hfits.2
    obtain ⟨hlong', hbody', icv, hattr'⟩ :=
      ih hloop hlong (fun x hx => hl x (List.mem_cons_of_mem f hx)) hrest
    refine ⟨hlong', ?_, icv, ?_⟩
    · rw [hbody', hbody, List.map_cons, List.flatten_cons, List.append_assoc]
    · rw [hattr', hattr]

theorem defragLoop_numbers {h g : RecvFrame} {l : List RecvFrame} {n : ℕ}
    (hloop : defragLoop h n l = some g) :
    l.map (fun f => f.attrib.fragNum.val) = List.range' n l.length := by
  induction l generalizing h n with
  | nil => rfl
  | cons f l ih =>
    simp only [defragLoop] at hloop
    split_ifs at hloop with hn
    have hn : n = f.attrib.fragNum := not_not.mp hn
    rw [List.map_cons, ih hloop, List.length_cons, List.range'_succ, ← hn]

/-- Consecutive fragments from number 0, the last one alone without
more-fragments. -/
structure Burst (fs : List RecvFrame) : Prop where
  numbers : fs.map (fun f => f.attrib.fragNum.val) = List.range fs.length
  more : ∀ f ∈ fs.dropLast, f.attrib.mfrag = true
  last : ∀ f ∈ fs.getLast?, f.attrib.mfrag = false

def FitsBurst : List RecvFrame → Prop
  | [] => True
  | h :: l => (∀ f ∈ h :: l, LongEnough f) ∧ Fits h.slack.length h.attrib.icvLen l

/-- `g` was joined from a burst that arrived in this order and ends with the
frame received last. -/
def Joined (micOk : RecvFrame → Bool) (received : List RecvFrame) (g : RecvFrame) : Prop :=
  ∃ fs g₀, fs.Sublist received ∧ fs.getLast? = received.getLast? ∧ Burst fs ∧
    checkPrivacy micOk g₀ = some g ∧ (FitsBurst fs → body g₀ = (fs.map body).flatten)

theorem recvframeDefrag_frame {fs : List RecvFrame} {g : RecvFrame}
    (hg : (recvframeDefrag fs).frame = some g) :
    ∃ h l, fs = h :: l ∧ h.attrib.fragNum.val = 0 ∧ defragLoop h 1 l = some g := by
  cases fs with
  | nil => simp [recvframeDefrag] at hg
  | cons h l =>
    simp only [recvframeDefrag] at hg
    split_ifs at hg with hzero
    cases hloop : defragLoop h 1 l with
    | none => simp [hloop] at hg
    | some r =>
      simp only [hloop] at hg
      exact ⟨h, l, rfl, (not_not.mp hzero).symm, hloop.trans hg⟩

theorem recvframeDefrag_joined {micOk : RecvFrame → Bool} {received q : List RecvFrame}
    {f g g₀ : RecvFrame} (hq : q.Sublist received) (hmore : ∀ x ∈ q, x.attrib.mfrag = true)
    (hf : f.attrib.mfrag = false) (hg : (recvframeDefrag (q ++ [f])).frame = some g₀)
    (hcheck : checkPrivacy micOk g₀ = some g) : Joined micOk (received ++ [f]) g := by
  obtain ⟨h, l, hfs, hzero, hloop⟩ := recvframeDefrag_frame hg
  refine ⟨q ++ [f], g₀, hq.append (List.Sublist.refl _), by simp, ⟨?_, ?_, ?_⟩, hcheck,
    ?_⟩
  · rw [hfs, List.map_cons, defragLoop_numbers hloop, hzero, List.length_cons,
      List.range_eq_range', List.range'_succ]
  · rw [List.dropLast_concat]
    exact hmore
  · rw [List.getLast?_concat]
    intro x hx
    exact Option.some.inj hx ▸ hf
  · rw [hfs]
    intro hfits
    have hspec := defragLoop_spec hloop (hfits.1 h List.mem_cons_self)
      (fun x hx => hfits.1 x (List.mem_cons_of_mem h hx)) hfits.2
    rw [hspec.2.1, List.map_cons, List.flatten_cons]

/-- The defrag queue of a station after one more fragment. A management frame is
freed by `recv_func_prehandle` afterwards, which unlinks it again. -/
def defragStep (micOk : RecvFrame → Bool) (q : List RecvFrame) (f : RecvFrame) :
    List RecvFrame :=
  let r := recvframeChkDefrag micOk (some q) f
  if f.getFrameType = .data then r.queue else r.queue.filter (fun g => g.id ≠ f.id)

/-- The queue holds received fragments in the order of arrival, all with
more-fragments set. -/
def QueueOk (received q : List RecvFrame) : Prop :=
  q.Sublist received ∧ ∀ f ∈ q, f.attrib.mfrag = true

theorem recvframeChkDefrag_queueOk (micOk : RecvFrame → Bool) {received q : List RecvFrame}
    (hq : QueueOk received q) (f : RecvFrame) :
    QueueOk (received ++ [f]) (recvframeChkDefrag micOk (some q) f).queue := by
  have hkeep : QueueOk (received ++ [f]) q :=
    ⟨hq.1.trans (List.sublist_append_left _ _), hq.2⟩
  have hnil : QueueOk (received ++ [f]) [] := ⟨List.nil_sublist _, by simp⟩
  simp only [recvframeChkDefrag, checkDefragged_queue]
  split_ifs with hmore hzero hlast
  · refine ⟨List.sublist_append_right _ _, fun x hx => ?_⟩
    rw [List.mem_singleton.mp hx]
    exact hmore
  · refine ⟨hq.1.append (List.Sublist.refl _), fun x hx => ?_⟩
    rcases List.mem_append.mp hx with hx | hx
    · exact hq.2 x hx
    · rw [List.mem_singleton.mp hx]
      exact hmore
  · have hempty : (recvframeDefrag (q ++ [f])).queue = [] := by
      cases q ++ [f] with
      | nil => rfl
      | cons h l =>
        simp only [recvframeDefrag]
        split_ifs
        · rfl
        · split <;> rfl
    rw [hempty]
    exact hnil
  · exact hkeep

theorem defragStep_queueOk (micOk : RecvFrame → Bool) {received q : List RecvFrame}
    (hq : QueueOk received q) (f : RecvFrame) :
    QueueOk (received ++ [f]) (defragStep micOk q f) := by
  have hr := recvframeChkDefrag_queueOk micOk hq f
  simp only [defragStep]
  split_ifs
  · exact hr
  · exact ⟨List.filter_sublist.trans hr.1, fun x hx => hr.2 x (List.mem_of_mem_filter hx)⟩

theorem run_queueOk (micOk : RecvFrame → Bool) (received fs q : List RecvFrame)
    (hq : QueueOk received q) : QueueOk (received ++ fs) (run (defragStep micOk) q fs) := by
  induction fs generalizing received q with
  | nil => simpa only [List.append_nil, run_nil] using hq
  | cons f fs ih =>
    have hstep := ih (received ++ [f]) (defragStep micOk q f) (defragStep_queueOk micOk hq f)
    rwa [List.append_assoc] at hstep

/-- Whatever was received before, a frame handed up was joined from a burst of
fragments 0, 1, ... in their order of arrival. -/
theorem recvframeChkDefrag_joined (micOk : RecvFrame → Bool) (fs : List RecvFrame)
    (f g : RecvFrame)
    (hg : (recvframeChkDefrag micOk (some (run (defragStep micOk) [] fs)) f).frame = some g) :
    Joined micOk (fs ++ [f]) g := by
  obtain ⟨hsub, hmore⟩ := run_queueOk micOk [] fs [] ⟨List.nil_sublist _, by simp⟩
  rw [List.nil_append] at hsub
  obtain ⟨g₀, hg₀, hcheck⟩ := checkDefragged_frame hg
  split_ifs at hg₀ with hmf hzero hlast
  · exact recvframeDefrag_joined hsub hmore (by simpa using hmf) hg₀ hcheck
  · obtain rfl : f = g₀ := Option.some.inj hg₀
    refine ⟨[f], f, List.sublist_append_right _ _, by simp, ⟨?_, by simp, ?_⟩, hcheck, ?_⟩
    · simpa using hlast
    · simpa using hmf
    · simp

def fragment (id : ℕ) (seqNum : Fin 4096) (fragNum : Fin 16) (mfrag : Bool)
    (payload : List UInt8) : RecvFrame where
  id := id
  attrib := { seqNum := seqNum, fragNum := fragNum, mfrag := mfrag }
  rxData := 8 :: List.replicate 23 0 ++ payload
  slack := List.replicate 64 0

theorem recvframeChkDefrag_joined_three :
    let fs := [fragment 0 7 0 true [1, 2], fragment 1 7 1 true [3]]
    let f := fragment 2 7 2 false [4, 5]
    let g := appendFragment (appendFragment (fragment 0 7 0 true [1, 2]) (fragment 1 7 1 true [3])) f
    body g = [1, 2, 3, 4, 5] ∧ Joined (fun _ => true) (fs ++ [f]) g :=
  ⟨by decide, recvframeChkDefrag_joined _ _ _ _ (by decide)⟩

def SameMsdu (f g : RecvFrame) : Prop :=
  f.attrib.seqNum = g.attrib.seqNum ∧ f.attrib.priority = g.attrib.priority ∧
    f.getFrameType = g.getFrameType ∧ f.attrib.privacy = g.attrib.privacy

instance (f g : RecvFrame) : Decidable (SameMsdu f g) := inferInstanceAs (Decidable (_ ∧ _))

def encryptedFirst : RecvFrame where
  attrib := { seqNum := 1, mfrag := true, privacy := true, encrypt := .aes, ivLen := 8
              icvLen := 8 }
  rxData := 8 :: List.replicate 31 0 ++ [1, 2] ++ List.replicate 8 0
  slack := List.replicate 64 0

def plainLast : RecvFrame where
  id := 1
  attrib := { seqNum := 2, fragNum := 1, qos := true, priority := 5, hdrlen := 26 }
  rxData := 8 :: List.replicate 25 0 ++ [9]

/-- An encrypted first fragment of MSDU 1 is joined with a plain last fragment of
MSDU 2 on another TID; no burst of one MSDU has the body handed up. -/
theorem mixed_fragments_joined :
    ∃ g, (recvframeChkDefrag (fun _ => true)
        (some (run (defragStep fun _ => true) [] [encryptedFirst])) plainLast).frame = some g ∧
      ¬ ∃ fs : List RecvFrame, fs.Sublist [encryptedFirst, plainLast] ∧
        (∀ x ∈ fs, ∀ y ∈ fs, SameMsdu x y) ∧ body g = (fs.map body).flatten := by
  refine ⟨appendFragment encryptedFirst plainLast, by decide, fun h => ?_⟩
  obtain ⟨fs, hsub, hsame, hbody⟩ := h
  have hall : ∀ fs ∈ [encryptedFirst, plainLast].sublists,
      (∀ x ∈ fs, ∀ y ∈ fs, SameMsdu x y) →
        body (appendFragment encryptedFirst plainLast) ≠ (fs.map body).flatten := by decide
  exact hall fs (List.mem_sublists.mpr hsub) hsame hbody

end Rtl8189.Defrag
