import Rtl8189.AccessTrace
import Rtl8189.Defrag

/-!
# The room for reassembly

The socket buffer of fragment 0 is allocated when only that fragment is known.
`recvframe_defrag` copies the other fragments behind it, and compares with its end only
after each copy.
-/
namespace Rtl8189.DefragBounds

open AccessTrace Defrag

/-- `alloc_sz` of `rtw_os_alloc_recvframe`. -/
def allocSz (f : RecvFrame) : ℕ :=
  if f.attrib.mfrag = true ∧ f.attrib.fragNum = 0 then if f.len ≤ 1650 then 1664 else f.len + 14
  else f.len + 14

/-- A fragment in the socket buffer that was allocated for it: `align` bytes before it bring
the data to a multiple of 8, and `shift` is there for a QoS header. -/
structure Fragment where
  f : RecvFrame
  align : ℕ
  shift : ℕ
  align_le : align ≤ 8
  shift_le : shift ≤ 6
  headroom : f.headroom = align + shift
  space : f.headroom + f.view.length = allocSz f

/-- `recvframe_pull` of header and IV; where there is less, the whole frame stays. -/
def pulled (f : RecvFrame) : RecvFrame :=
  (f.recvframePull (f.attrib.hdrlen + f.attrib.ivLen)).getD f

def cut (f : RecvFrame) : RecvFrame := (f.recvframePullTail f.attrib.icvLen).getD f

/-- The copies of `recvframe_defrag` to the buffer of the first fragment. -/
def defragOps (prframe : RecvFrame) (curfragnum : ℕ) : List RecvFrame → List Op
  | [] => []
  | f :: l =>
    if curfragnum ≠ f.attrib.fragNum then []
    else
      .bytes ((cut prframe).headroom + (cut prframe).len : ℕ) (pulled f).len ::
        defragOps (appendFragment prframe f) (curfragnum + 1) l

def recvframeDefragOps : List RecvFrame → List Op
  | [] => []
  | f :: l => if 0 ≠ f.attrib.fragNum.val then [] else defragOps f 1 l

def kept (len icvLen : ℕ) : ℕ := if icvLen ≤ len then len - icvLen else len

def added (f : RecvFrame) : ℕ :=
  if f.attrib.hdrlen + f.attrib.ivLen ≤ f.len then f.len - (f.attrib.hdrlen + f.attrib.ivLen)
  else f.len

/-- At every fragment that is joined, what is there already has room for it. -/
def Fits (room : ℕ) : ℕ → ℕ → ℕ → List RecvFrame → Prop
  | _, _, _, [] => True
  | len, icvLen, n, f :: l =>
    n = f.attrib.fragNum → kept len icvLen + added f ≤ room ∧
      Fits room (kept len icvLen + added f) f.attrib.icvLen (n + 1) l

/-- The condition on the fragments that are joined when the last one comes. -/
def JoinFits : List RecvFrame → Prop
  | [] => True
  | f :: l => f.attrib.fragNum.val = 0 → Fits (allocSz f - f.headroom) f.len f.attrib.icvLen 1 l

/-- Nothing is written beyond the buffer of fragment 0, and fragments without room there are
dropped. -/
def JoinSafe : List RecvFrame → Prop
  | [] => True
  | f :: l => Within (allocSz f) (recvframeDefragOps (f :: l)) ∧
      (¬ JoinFits (f :: l) → (recvframeDefrag (f :: l)).frame = none)

def joins (micOk : RecvFrame → Bool) (q : List RecvFrame) : List RecvFrame → List (List RecvFrame)
  | [] => []
  | f :: fs =>
    (if f.attrib.mfrag = false ∧ f.attrib.fragNum ≠ 0 then [q ++ [f]] else []) ++
      joins micOk (recvframeChkDefrag micOk (some q) f).queue fs

/-! ## One join -/

theorem cut_spec (f : RecvFrame) :
    (cut f).len = kept f.len f.attrib.icvLen ∧ (cut f).headroom = f.headroom ∧
      (cut f).view = f.view := by
  unfold cut kept
  cases hcut : f.recvframePullTail f.attrib.icvLen with
  | none =>
    unfold RecvFrame.recvframePullTail at hcut
    split at hcut
    · exact nomatch hcut
    · next h =>
      rw [if_neg h]
      exact ⟨rfl, rfl, rfl⟩
  | some g =>
    have hview := RecvFrame.recvframePullTail_view hcut
    unfold RecvFrame.recvframePullTail at hcut
    split at hcut
    · next h =>
      obtain rfl := Option.some.inj hcut
      rw [if_pos h]
      refine ⟨?_, rfl, hview⟩
      change (f.rxData.take _).length = _
      rw [List.length_take]
      exact Nat.min_eq_left (Nat.sub_le _ _)
    · exact nomatch hcut

theorem pulled_len (f : RecvFrame) : (pulled f).len = added f := by
  unfold pulled added RecvFrame.recvframePull
  split
  · change (f.rxData.drop _).length = _
    rw [List.length_drop]
    rfl
  · rfl

theorem appendFragment_eq (h f : RecvFrame) :
    appendFragment h f = { (cut h).copyAndPut (pulled f).rxData with
      attrib := { ((cut h).copyAndPut (pulled f).rxData).attrib with
        icvLen := f.attrib.icvLen } } := rfl

theorem view_length (f : RecvFrame) : f.view.length = f.len + f.slack.length := by
  rw [RecvFrame.view, List.length_append]
  rfl

theorem appendFragment_room (h f : RecvFrame) :
    (appendFragment h f).headroom = h.headroom ∧
      (appendFragment h f).view.length = h.view.length ∧
      (kept h.len h.attrib.icvLen + added f ≤ h.view.length →
        (appendFragment h f).len = kept h.len h.attrib.icvLen + added f) := by
  obtain ⟨hlen, hroom, hview⟩ := cut_spec h
  have hadd := pulled_len f
  have hsize := congrArg List.length hview
  rw [view_length] at hsize
  rw [appendFragment_eq]
  unfold RecvFrame.copyAndPut
  have hrest := view_length (cut h)
  rw [hview] at hrest
  have hadd : (pulled f).rxData.length = added f := hadd
  have hlen : (cut h).rxData.length = kept h.len h.attrib.icvLen := hlen
  have hrest : h.view.length = (cut h).rxData.length + (cut h).slack.length := hrest
  split
  · next hfit =>
    refine ⟨hroom, ?_, fun _ => ?_⟩
    · change ((cut h).rxData ++ (pulled f).rxData ++ (cut h).slack.drop _).length = _
      rw [List.length_append, List.length_append, List.length_drop]
      omega
    · change ((cut h).rxData ++ (pulled f).rxData).length = _
      rw [List.length_append, hlen, hadd]
  · next hfit =>
    refine ⟨hroom, ?_, fun hroom => ?_⟩
    · change ((cut h).rxData ++ (pulled f).rxData.take _).length = _
      rw [List.length_append, List.length_take]
      omega
    · omega

theorem defragOps_within (h : RecvFrame) (n : ℕ) (l : List RecvFrame) :
    Within (h.headroom + h.view.length) (defragOps h n l) ↔
      Fits h.view.length h.len h.attrib.icvLen n l := by
  induction l generalizing h n with
  | nil => exact iff_of_true within_nil trivial
  | cons f l ih =>
    unfold defragOps Fits
    by_cases hn : n = f.attrib.fragNum
    · rw [if_neg (not_not.mpr hn), within_cons]
      obtain ⟨hhead, hview, hlen⟩ := appendFragment_room h f
      obtain ⟨hcut, hroom, -⟩ := cut_spec h
      have hkept : kept h.len h.attrib.icvLen ≤ h.view.length := by
        rw [view_length]
        unfold kept
        split <;> omega
      have hop : (Op.bytes ((cut h).headroom + (cut h).len : ℕ) (pulled f).len).Within
          (h.headroom + h.view.length) ↔
          kept h.len h.attrib.icvLen + added f ≤ h.view.length := by
        rw [pulled_len, hroom, hcut]
        obtain hzero | hpos := Nat.eq_zero_or_pos (added f)
        · rw [hzero]
          exact iff_of_true (fun hlt => absurd hlt (Nat.lt_irrefl 0)) hkept
        · rw [bytes_within_iff _ hpos]
          omega
      have hrest := ih (appendFragment h f) (n + 1)
      rw [hhead, hview] at hrest
      rw [hop, hrest]
      simp only [hn, true_imp_iff]
      refine and_congr_right fun hfit => ?_
      rw [hlen hfit]
      rfl
    · rw [if_pos hn]
      exact iff_of_true within_nil (fun h => absurd h hn)

theorem join_safe_iff (f : Fragment) (l : List RecvFrame) :
    JoinSafe (f.f :: l) ↔ JoinFits (f.f :: l) := by
  have hspace := f.space
  have hroom : allocSz f.f - f.f.headroom = f.f.view.length := by omega
  have hops : Within (allocSz f.f) (recvframeDefragOps (f.f :: l)) ↔ JoinFits (f.f :: l) := by
    rw [recvframeDefragOps, JoinFits]
    by_cases hzero : f.f.attrib.fragNum.val = 0
    · rw [if_neg (not_not.mpr hzero.symm), hroom, ← hspace, defragOps_within]
      exact ⟨fun h _ => h, fun h => h hzero⟩
    · rw [if_pos (Ne.symm hzero)]
      exact iff_of_true within_nil (fun h => absurd h hzero)
  rw [JoinSafe, hops]
  exact ⟨fun h => h.1, fun h => ⟨h, fun hn => absurd h hn⟩⟩

/-! ## Every sequence -/

theorem queue_sub {micOk : RecvFrame → Bool} {q : List RecvFrame} {f g : RecvFrame}
    (hg : g ∈ (recvframeChkDefrag micOk (some q) f).queue) : g ∈ q ∨ g = f := by
  rw [recvframeChkDefrag, checkDefragged_queue] at hg
  split at hg
  · split at hg
    · exact .inr (List.mem_singleton.mp hg)
    · rw [List.mem_append, List.mem_singleton] at hg
      exact hg
  · split at hg
    · have hnone : (recvframeDefrag (q ++ [f])).queue = [] := by
        cases q ++ [f] with
        | nil => rfl
        | cons h l =>
          rw [recvframeDefrag]
          split
          · rfl
          · split <;> rfl
      rw [hnone] at hg
      cases hg
    · exact .inl hg

theorem joins_mem {micOk : RecvFrame → Bool} {q fs j : List RecvFrame} {g : RecvFrame}
    (hj : j ∈ joins micOk q fs) (hg : g ∈ j) : g ∈ q ∨ g ∈ fs := by
  induction fs generalizing q with
  | nil => exact nomatch hj
  | cons f fs ih =>
    rw [joins, List.mem_append] at hj
    obtain hj | hj := hj
    · split at hj
      · rw [List.mem_singleton.mp hj, List.mem_append, List.mem_singleton] at hg
        obtain hg | rfl := hg
        · exact .inl hg
        · exact .inr List.mem_cons_self
      · exact nomatch hj
    · obtain hg | hg := ih hj
      · obtain hg | rfl := queue_sub hg
        · exact .inl hg
        · exact .inr List.mem_cons_self
      · exact .inr (List.mem_cons_of_mem _ hg)

/-- No byte is written beyond a buffer just when all that is joined in it has room. -/
theorem defrag_inside (micOk : RecvFrame → Bool) (fs : List Fragment) :
    (∀ j ∈ joins micOk [] (fs.map (·.f)), JoinSafe j) ↔
      ∀ j ∈ joins micOk [] (fs.map (·.f)), JoinFits j := by
  refine forall₂_congr fun j hj => ?_
  cases j with
  | nil => exact Iff.rfl
  | cons f l =>
    obtain hf | hf := joins_mem hj List.mem_cons_self
    · exact nomatch hf
    · obtain ⟨g, -, rfl⟩ := List.mem_map.mp hf
      exact join_safe_iff g l

def fragment (n : Fin 16) (more : Bool) (rest : ℕ) : RecvFrame where
  attrib := { mfrag := more, fragNum := n }
  headroom := 8
  rxData := List.replicate 1000 0
  slack := List.replicate rest 0

def firstFragment : Fragment where
  f := fragment 0 true 656
  align := 8
  shift := 0
  align_le := Nat.le_refl 8
  shift_le := Nat.zero_le 6
  headroom := rfl
  space := by decide +kernel

def lastFragment : Fragment where
  f := fragment 1 false 6
  align := 8
  shift := 0
  align_le := Nat.le_refl 8
  shift_le := Nat.zero_le 6
  headroom := rfl
  space := by decide +kernel

/-- The second fragment is written over the end of the buffer of the first. -/
theorem defrag_overrun :
    ¬ ∀ j ∈ joins (fun _ => true) [] ([firstFragment, lastFragment].map (·.f)), JoinSafe j := by
  intro h
  have hjoin : JoinSafe [firstFragment.f, lastFragment.f] := h _ (List.mem_singleton.mpr rfl)
  have hfits := ((join_safe_iff firstFragment [lastFragment.f]).1 hjoin rfl rfl).1
  revert hfits
  decide +kernel

end Rtl8189.DefragBounds
