import Rtl8189.EfuseMap

/-!
# Runs of map writes

The efuse as a log of packets and a recorded size, and what a sequence of map writes does
to the map.
-/
namespace Rtl8189.EfuseRun

open Tape EfusePacket EfuseRead EfuseWrite EfuseMap EventRun

/-! ## The efuse as a log -/

structure Medium where
  log : List Packet
  recorded : ℕ

def program : Medium → List Packet → Bool × Medium
  | m, [] => (true, m)
  | m, p :: ps =>
    if size enc m.log < availableEfuseBytes then program ⟨m.log ++ [p], size enc m.log⟩ ps
    else (false, ⟨m.log, size enc m.log⟩)

def Medium.spaceFrom (m : Medium) (iol : Bool) : ℕ :=
  if iol = true ∧ m.recorded ≠ 0 then m.recorded else size enc m.log

def Medium.need (m : Medium) (c : MapWrite) : List Packet :=
  packets (logMap m.log) (overlay c (logMap m.log))

def Medium.mapWrite (m : Medium) (iol : Bool) (c : MapWrite) : Bool × Medium :=
  if efuseMapLen88E < c.addr + c.cnts then (false, m)
  else if availableEfuseBytes ≤ m.spaceFrom iol + size enc (m.need c) then
    (false, ⟨m.log, m.spaceFrom iol⟩)
  else program ⟨m.log, m.spaceFrom iol⟩ (m.need c)

structure Refines (e : Efuse) (m : Medium) : Prop where
  logged : Logged e m.log
  recorded : e.efuseUsedBytes = m.recorded

theorem refines_blank : Refines blank ⟨[], 0⟩ where
  logged := ⟨fun _ => rfl, boundary_zero [], by decide⟩
  recorded := rfl

theorem program_singleton (m : Medium) (p : Packet) :
    program m [p] =
      if size enc m.log < availableEfuseBytes then (true, ⟨m.log ++ [p], size enc m.log⟩)
      else (false, ⟨m.log, size enc m.log⟩) := rfl

theorem Refines.write {e : Efuse} {m : Medium} (h : Refines e m) (p : Packet) :
    (efusePgPacketWrite efuseRealContentLen88E e p.offset p.wordEn p.data).1 =
        (program m [p]).1 ∧
      Refines (efusePgPacketWrite efuseRealContentLen88E e p.offset p.wordEn p.data).2
        (program m [p]).2 := by
  rw [program_singleton, efuseRealContentLen88E, efusePgPacketWrite_spec h.logged p 255]
  split_ifs with hroom
  · exact ⟨rfl, logged_burn h.logged p hroom, rfl⟩
  · exact ⟨rfl, ⟨h.logged.cells, boundary_end m.log, h.logged.room⟩, rfl⟩

theorem program_cons (m : Medium) (p : Packet) (ps : List Packet) :
    program m (p :: ps) =
      if (program m [p]).1 then program (program m [p]).2 ps else program m [p] := by
  rw [program_singleton, program]
  by_cases hroom : size enc m.log < availableEfuseBytes
  · rw [if_pos hroom, if_pos hroom, if_pos rfl]
  · rw [if_neg hroom, if_neg hroom, if_neg Bool.false_ne_true]

section Loop

variable {addr cnts : ℕ} {efuse map : ℕ → UInt8} (hmap : addr + cnts ≤ efuseMapLen88E)
  (hout : ∀ a, (¬ addr ≤ a ∨ ¬ a < addr + cnts) → efuse a = map a)

include hmap hout in
theorem section_write {idx s : ℕ} {offset : UInt8} {e : Efuse} {m : Medium} (h : Refines e m)
    (hat : AtSection addr cnts efuse map idx s) (hidx : idx < cnts) (hoffset : offset.toNat = s)
    (hne : (sectionScan addr cnts efuse map idx offset).2.1 ≠ 0xF) :
    ∃ p, packetsFrom map efuse s = p :: packetsFrom map efuse (s + 1) ∧
      (efusePgPacketWrite efuseRealContentLen88E e offset
          (sectionScan addr cnts efuse map idx offset).2.1
          (sectionScan addr cnts efuse map idx offset).2.2).1 = (program m [p]).1 ∧
      Refines (efusePgPacketWrite efuseRealContentLen88E e offset
          (sectionScan addr cnts efuse map idx offset).2.1
          (sectionScan addr cnts efuse map idx offset).2.2).2 (program m [p]).2 := by
  obtain ⟨hscan, -⟩ := sectionScan_spec hout hat hidx hoffset
  have hs := hat.lt hidx hmap
  rw [hscan] at hne ⊢
  obtain ⟨p, hp, hpo, hpw, hpd⟩ := changes_eq_some hoffset hs hne
  refine ⟨p, ?_, ?_⟩
  · rw [packetsFrom_succ _ _ hs, hp, Option.toList_some, List.singleton_append]
  · have hwrite := h.write p
    rwa [hpo, hpw, hpd] at hwrite

include hmap hout in
theorem programLoop_spec {idx s : ℕ} {offset : UInt8} {e : Efuse} {m : Medium}
    (h : Refines e m) (hat : AtSection addr cnts efuse map idx s) (hoffset : offset.toNat = s) :
    (programLoop addr cnts efuse map idx offset e).1 =
        (program m (packetsFrom map efuse s)).1 ∧
      Refines (programLoop addr cnts efuse map idx offset e).2
        (program m (packetsFrom map efuse s)).2 := by
  fun_induction programLoop addr cnts efuse map idx offset e generalizing s m with
  | case1 idx offset e hidx r hlt hne e' =>
    rename_i hwrite
    obtain ⟨p, hp, hok, hrefines⟩ := section_write hmap hout h hat hidx hoffset hne
    rw [hwrite] at hok hrefines
    rw [hp, program_cons, ← hok, if_neg Bool.false_ne_true]
    exact ⟨hok, hrefines⟩
  | case2 idx offset e hidx r hlt hne e' hwrite =>
    rename_i ih
    obtain ⟨p, hp, hok, hrefines⟩ := section_write hmap hout h hat hidx hoffset hne
    obtain ⟨-, hnext⟩ := sectionScan_spec hout hat hidx hoffset
    rw [hwrite] at hok hrefines
    rw [hp, program_cons, ← hok, if_pos rfl]
    exact ih hrefines hnext (toNat_succ hoffset (hat.lt hidx hmap))
  | case3 idx offset e hidx r hlt heq =>
    rename_i ih
    obtain ⟨hscan, hnext⟩ := sectionScan_spec hout hat hidx hoffset
    have hs := hat.lt hidx hmap
    have hmask : sectionMask map efuse s = 0xF := by
      have hr := not_not.mp heq
      rwa [show r.2 = _ from hscan] at hr
    rw [packetsFrom_succ _ _ hs, changes_eq_none (sectionMask_eq_iff.mp hmask), Option.toList_none,
      List.nil_append]
    exact ih h hnext (toNat_succ hoffset hs)
  | case4 idx offset e hidx =>
    have hlast := hat.last (Nat.le_antisymm hat.idx_le (Nat.le_of_not_lt hidx))
    rw [packetsFrom_eq_nil hlast]
    exact ⟨rfl, h⟩

end Loop

/-! ## A map write -/

theorem packetsFrom_skip {map efuse : ℕ → UInt8} {s : ℕ} (hs : s ≤ efuseMaxSection88E)
    (h : ∀ a < 8 * s, efuse a = map a) : packets map efuse = packetsFrom map efuse s := by
  induction s with
  | zero => rfl
  | succ s ih =>
    rw [ih (by omega) fun a ha => h a (by omega), packetsFrom_succ _ _ (Nat.lt_of_succ_le hs),
      changes_eq_none fun k hk => h _ (by omega), Option.toList_none, List.nil_append]

theorem overlay_of_outside (c : MapWrite) (map : ℕ → UInt8) {a : ℕ}
    (h : ¬ c.addr ≤ a ∨ ¬ a < c.addr + c.cnts) : overlay c map a = map a :=
  if_neg fun hin => h.elim (fun hlo => hlo hin.1) fun hhi => hhi hin.2.1

theorem size_eq_zero {log : List Packet} : size enc log = 0 ↔ log = [] := by
  cases log with
  | nil => exact ⟨fun _ => rfl, fun _ => rfl⟩
  | cons p log =>
    rw [size_cons, length_enc]
    constructor
    · intro h
      split_ifs at h <;> omega
    · rintro ⟨⟩

theorem Refines.recorded_of_nil {e : Efuse} {m : Medium} (h : Refines e m) (hnil : m.log = []) :
    m.recorded = 0 := by
  obtain ⟨pre, post, hlog, hrec⟩ := h.logged.recorded
  rw [hnil] at hlog
  rw [← h.recorded, hrec, (List.append_eq_nil_iff.mp hlog.symm).1, size_nil]

theorem Refines.spaceFrom_boundary {e : Efuse} {m : Medium} (h : Refines e m) (iol : Bool) :
    Boundary enc m.log (m.spaceFrom iol) := by
  unfold Medium.spaceFrom
  split_ifs
  · rw [← h.recorded]
    exact h.logged.recorded
  · exact boundary_end m.log

theorem startAddress_spec {e : Efuse} {m : Medium} (h : Refines e m) (iol : Bool) :
    startAddress ⟨e.cells, if iol = true ∨ m.log = [] then e.efuseUsedBytes
        else size enc m.log⟩ = (m.spaceFrom iol, ⟨e.cells, m.spaceFrom iol⟩) := by
  have hask : ∀ a, Boundary enc m.log a →
      efuseGetCurrentSize ⟨e.cells, a⟩ = (size enc m.log, ⟨e.cells, size enc m.log⟩) :=
    fun a ha => efuseGetCurrentSize_spec ⟨h.logged.cells, ha, h.logged.room⟩
  rw [startAddress, Medium.spaceFrom, h.recorded]
  by_cases hnil : m.log = []
  · have hrec := h.recorded_of_nil hnil
    rw [if_pos (Or.inr hnil), if_pos hrec, if_neg fun hne => hne.2 hrec,
      hask _ (hrec ▸ boundary_zero m.log)]
  · cases iol with
    | true =>
      rw [if_pos (Or.inl rfl)]
      by_cases hrec : m.recorded = 0
      · rw [if_pos hrec, if_neg fun hne => hne.2 hrec, hask _ (hrec ▸ boundary_zero m.log)]
      · rw [if_neg hrec, if_pos ⟨rfl, hrec⟩]
    | false =>
      have hor : ¬ (false = true ∨ m.log = []) := fun hor => hor.elim Bool.false_ne_true hnil
      rw [if_neg hor, if_neg fun hzero => hnil (size_eq_zero.mp hzero),
        if_neg fun hand => Bool.false_ne_true hand.1]

theorem rtwEfuseMapWrite_refines {e : Efuse} {m : Medium} {c : MapWrite} (had : c.ad.Faithful)
    (h : Refines e m) :
    (rtwEfuseMapWrite e c).1 = (m.mapWrite (iolReads c.ad e) c).1 ∧
      Refines (rtwEfuseMapWrite e c).2 (m.mapWrite (iolReads c.ad e) c).2 := by
  unfold rtwEfuseMapWrite Medium.mapWrite
  by_cases hmap : efuseMapLen88E < c.addr + c.cnts
  · rw [if_pos hmap, if_pos hmap]
    exact ⟨rfl, h⟩
  · have hinside := Nat.le_of_not_lt hmap
    have hout : ∀ a, (¬ c.addr ≤ a ∨ ¬ a < c.addr + c.cnts) →
        overlay c (logMap m.log) a = logMap m.log a := fun a ha => overlay_of_outside c _ ha
    have hat := atSection_zero hout
    have hle : c.addr / 8 ≤ efuseMaxSection88E := by
      simp only [efuseMapLen88E, efuseMaxSection88E] at hinside ⊢
      omega
    have hoffset : (UInt8.ofNat (c.addr / 8)).toNat = c.addr / 8 := by
      exact UInt8.toNat_ofNat_of_lt' (Nat.lt_of_le_of_lt hle (by decide))
    have hneed : m.need c = packetsFrom (logMap m.log) (overlay c (logMap m.log)) (c.addr / 8) :=
      packetsFrom_skip hle fun a ha => hout a (by omega)
    have hstart : Refines ⟨e.cells, m.spaceFrom (iolReads c.ad e)⟩
        ⟨m.log, m.spaceFrom (iolReads c.ad e)⟩ :=
      ⟨⟨h.logged.cells, h.spaceFrom_boundary _, h.logged.room⟩, rfl⟩
    rw [if_neg hmap, if_neg hmap, rtwEfuseMapRead_spec had h.logged]
    simp only [startAddress_spec h, efuseImage_eq, chkTotalByte_spec hinside hout hat hoffset,
      ← hneed]
    split_ifs with hspace
    · exact ⟨rfl, hstart⟩
    · rw [hneed]
      exact programLoop_spec hinside hout hstart hat hoffset

/-! ## What the packets do to the map -/

section Difference

variable {map efuse : ℕ → UInt8}

theorem changes_spec {s : ℕ} {p : Packet} (hp : changes map efuse s = some p) :
    p.offset.toNat = s ∧ p.wordEn = sectionMask map efuse s ∧ p.data = sectionData efuse s := by
  unfold changes at hp
  split_ifs at hp with h
  cases hp
  refine ⟨?_, rfl, rfl⟩
  exact UInt8.toNat_ofNat_of_lt' (Nat.lt_trans h.1 (by decide))

theorem mem_packets {p : Packet} :
    p ∈ packets map efuse ↔ changes map efuse p.offset.toNat = some p := by
  simp only [packets, packetsFrom, List.mem_filterMap, List.mem_range'_1]
  constructor
  · rintro ⟨s, -, hp⟩
    rwa [(changes_spec hp).1]
  · intro hp
    refine ⟨p.offset.toNat, ⟨Nat.zero_le _, ?_⟩, hp⟩
    have hlt := p.offset_lt
    omega

theorem apply_of_mem {p : Packet} (hp : p ∈ packets map efuse) {mid : ℕ → UInt8}
    (hmid : ∀ a, mid a = map a ∨ mid a = efuse a) (a : ℕ) :
    p.apply mid a = if a / 8 = p.offset.toNat then efuse a else mid a := by
  obtain ⟨-, hw, hd⟩ := changes_spec (mem_packets.mp hp)
  have hlt : a % 8 < 8 := Nat.mod_lt _ (by decide)
  rw [PgPkt.apply, hw, hd]
  by_cases ha : a / 8 = p.offset.toNat
  · have haddr : 8 * p.offset.toNat + a % 8 = a := by omega
    rw [if_pos ha]
    split_ifs with hen
    · rw [sectionData, if_pos hlt, haddr]
    · have hsame : efuse a = map a := by
        by_contra hne
        refine hen ⟨ha, (enabled_sectionMask (by omega)).mpr ⟨a % 8, hlt, rfl, ?_⟩⟩
        rwa [haddr]
      rcases hmid a with h | h
      · rw [h, hsame]
      · exact h
  · rw [if_neg ha, if_neg fun h => ha h.1]

theorem replay_of_mem {ps : List Packet} (hps : ∀ p ∈ ps, p ∈ packets map efuse)
    {mid : ℕ → UInt8} (hmid : ∀ a, mid a = map a ∨ mid a = efuse a) (a : ℕ) :
    replay mid ps a = if ∃ p ∈ ps, a / 8 = p.offset.toNat then efuse a else mid a := by
  induction ps generalizing mid with
  | nil => simp
  | cons p ps ih =>
    have hp := apply_of_mem (hps p List.mem_cons_self) hmid
    rw [replay_cons, ih fun q hq => hps q (List.mem_cons_of_mem p hq)]
    · rw [hp a]
      by_cases ha : a / 8 = p.offset.toNat <;> simp [ha]
    · intro b
      rw [hp b]
      split_ifs
      · exact Or.inr rfl
      · exact hmid b

theorem replay_packets (hlen : ∀ a, efuseMapLen88E ≤ a → efuse a = map a) :
    replay map (packets map efuse) = efuse := by
  funext a
  rw [replay_of_mem (fun _ hp => hp) fun _ => Or.inl rfl]
  split_ifs with hin
  · rfl
  · by_contra hne
    have hs : a / 8 < efuseMaxSection88E := by
      by_contra hge
      refine hne (hlen a ?_).symm
      simp only [efuseMapLen88E, efuseMaxSection88E] at *
      omega
    have hlt : a % 8 < 8 := Nat.mod_lt _ (by decide)
    have hmask : sectionMask map efuse (a / 8) ≠ 0xF := by
      intro hmask
      have hsame := sectionMask_eq_iff.mp hmask (a % 8) hlt
      rw [show 8 * (a / 8) + a % 8 = a by omega] at hsame
      exact hne hsame.symm
    have htoNat : (UInt8.ofNat (a / 8)).toNat = a / 8 := by
      exact UInt8.toNat_ofNat_of_lt' (Nat.lt_trans hs (by decide))
    obtain ⟨p, hp, hpo, -⟩ := changes_eq_some htoNat hs hmask
    have hoff : p.offset.toNat = a / 8 := by rw [hpo, htoNat]
    exact hin ⟨p, mem_packets.mpr (hoff ▸ hp), hoff.symm⟩

theorem replay_ne {p : Packet} {ps : List Packet}
    (hps : ∀ q ∈ p :: ps, q ∈ packets map efuse) : replay map (p :: ps) ≠ map := by
  obtain ⟨hoff, hw, -⟩ := changes_spec (mem_packets.mp (hps p List.mem_cons_self))
  obtain ⟨i, hi, hen⟩ := exists_enabled p.wordEn_lt
  rw [hw] at hen
  obtain ⟨k, hk, -, hne⟩ := (enabled_sectionMask hi).mp hen
  intro hsame
  have hk' := congrFun hsame (8 * p.offset.toNat + k)
  rw [replay_of_mem hps (fun _ => Or.inl rfl), if_pos ⟨p, List.mem_cons_self, by omega⟩] at hk'
  exact hne hk'

end Difference

/-! ## Success and failure -/

theorem program_log (m : Medium) (ps : List Packet) :
    ∃ pre post, ps = pre ++ post ∧ (program m ps).2.log = m.log ++ pre ∧
      ((program m ps).1 = true ↔ post = []) ∧
      (pre = [] ↔ ps = [] ∨ ¬ size enc m.log < availableEfuseBytes) := by
  induction ps generalizing m with
  | nil => exact ⟨[], [], rfl, (List.append_nil _).symm, by simp [program], by simp⟩
  | cons p ps ih =>
    rw [program]
    split_ifs with hroom
    · obtain ⟨pre, post, hps, hlog, hok, -⟩ := ih ⟨m.log ++ [p], size enc m.log⟩
      refine ⟨p :: pre, post, by rw [hps, List.cons_append], ?_, hok, by simp [hroom]⟩
      rw [hlog, List.append_assoc, List.singleton_append]
    · exact ⟨[], p :: ps, rfl, (List.append_nil _).symm, by simp, by simp [hroom]⟩

theorem program_ok (m : Medium) (ps : List Packet) :
    (program m ps).1 = true ↔
      ps = [] ∨ size enc m.log + size enc ps.dropLast < availableEfuseBytes := by
  induction ps generalizing m with
  | nil => simp [program]
  | cons p ps ih =>
    rw [program]
    by_cases hroom : size enc m.log < availableEfuseBytes
    · rw [if_pos hroom, ih]
      cases ps with
      | nil => simp [hroom]
      | cons q ps =>
        simp only [List.dropLast_cons_cons, size_append, size_cons, size_nil, reduceCtorEq,
          false_or]
        omega
    · rw [if_neg hroom]
      simp only [Bool.false_eq_true, reduceCtorEq, false_or, false_iff]
      omega

/-- Either the call does on the map what its outcome says, or the space check has let it
through on a size that is too small, and the packets before its last one leave no room. -/
theorem mapWrite_map_iff (m : Medium) (iol : Bool) (c : MapWrite) :
    logMap (m.mapWrite iol c).2.log =
        (if (m.mapWrite iol c).1 then overlay c (logMap m.log) else logMap m.log) ↔
      (c.addr + c.cnts ≤ efuseMapLen88E → size enc m.log < availableEfuseBytes →
        m.spaceFrom iol + size enc (m.need c) < availableEfuseBytes →
        size enc m.log + size enc (m.need c).dropLast < availableEfuseBytes) := by
  unfold Medium.mapWrite
  by_cases houtside : efuseMapLen88E < c.addr + c.cnts
  · rw [if_pos houtside]
    exact iff_of_true rfl fun hin => absurd houtside (Nat.not_lt.mpr hin)
  rw [if_neg houtside]
  by_cases hspace : availableEfuseBytes ≤ m.spaceFrom iol + size enc (m.need c)
  · rw [if_pos hspace]
    exact iff_of_true rfl fun _ _ hlt => absurd hspace (Nat.not_le.mpr hlt)
  rw [if_neg hspace]
  obtain ⟨pre, post, hneed, hlog, hpost, hpre⟩ :=
    program_log ⟨m.log, m.spaceFrom iol⟩ (m.need c)
  have hok := program_ok ⟨m.log, m.spaceFrom iol⟩ (m.need c)
  have hmap : logMap (m.log ++ pre) = replay (logMap m.log) pre := replay_append _ _ _
  rw [hlog, hmap]
  by_cases htrue : (program ⟨m.log, m.spaceFrom iol⟩ (m.need c)).1 = true
  · rw [if_pos htrue]
    have hall : pre = m.need c := by rw [hneed, hpost.mp htrue, List.append_nil]
    refine iff_of_true ?_ ?_
    · rw [hall]
      refine replay_packets fun a ha => overlay_of_outside c _ ?_
      omega
    · intro _ hroom _
      rcases hok.mp htrue with hnil | hlt
      · rw [hnil]
        exact hroom
      · exact hlt
  · rw [if_neg htrue]
    have hfail := fun h => htrue (hok.mpr h)
    constructor
    · intro hsame _ hroom _
      exfalso
      cases pre with
      | nil =>
        rcases hpre.mp rfl with hnil | hfull
        · exact hfail (Or.inl hnil)
        · exact hfull hroom
      | cons p pre =>
        have hmem : ∀ q ∈ p :: pre, q ∈ m.need c := by
          intro q hq
          rw [hneed]
          exact List.mem_append_left post hq
        exact replay_ne hmem hsame
    · intro hfits
      have hfull : ¬ size enc m.log < availableEfuseBytes := fun hroom =>
        hfail (Or.inr (hfits (Nat.le_of_not_lt houtside) hroom (Nat.lt_of_not_le hspace)))
      rw [hpre.mpr (Or.inr hfull), replay_nil]

/-! ## Runs -/

def step (e : Efuse) (c : MapWrite) : Efuse := (rtwEfuseMapWrite e c).2

/-- A call that succeeds makes the map read as the data says, and one that fails leaves it
as it was, whichever way it is read before and after. -/
def Kept (e : Efuse) (c : MapWrite) : Prop :=
  ∀ ad ad' : Adapter, ad.Faithful → ad'.Faithful →
    wholeMap ad' (step e c) =
      if (rtwEfuseMapWrite e c).1 then overlay c (wholeMap ad e) else wholeMap ad e

/-- The size on record, if the map was read by the firmware and there is one, and else
the end of the log. -/
def spaceFrom (ad : Adapter) (e : Efuse) : ℕ :=
  if iolReads ad e = true ∧ e.efuseUsedBytes ≠ 0 then e.efuseUsedBytes
  else currentSizeLoop e.cells 0

/-- Room is left for the last packet of every call that is let through. -/
def Fits (e : Efuse) (c : MapWrite) : Prop :=
  let used := currentSizeLoop e.cells 0
  let need := packets (wholeMap c.ad e) (overlay c (wholeMap c.ad e))
  c.addr + c.cnts ≤ efuseMapLen88E → used < availableEfuseBytes →
    spaceFrom c.ad e + size enc need < availableEfuseBytes →
    used + size enc need.dropLast < availableEfuseBytes

theorem Refines.wholeMap_eq {e : Efuse} {m : Medium} (h : Refines e m) {ad : Adapter}
    (had : ad.Faithful) : wholeMap ad e = logMap m.log := by
  rw [wholeMap, rtwEfuseMapRead_spec had h.logged]

theorem Refines.currentSize_eq {e : Efuse} {m : Medium} (h : Refines e m) :
    currentSizeLoop e.cells 0 = size enc m.log :=
  currentSizeLoop_spec h.logged.cells h.logged.room (boundary_zero m.log)

theorem faithful_of_none {ad : Adapter} (h : ∀ cells, ad.cmdReadEfuseMap cells = none) :
    ad.Faithful := by
  intro cells buf hbuf
  rw [h cells] at hbuf
  exact absurd hbuf (by simp)

theorem kept_iff_fits {e : Efuse} {m : Medium} (h : Refines e m) {c : MapWrite}
    (had : c.ad.Faithful) : Kept e c ↔ Fits e c := by
  obtain ⟨hok, hrefines⟩ := rtwEfuseMapWrite_refines had h
  have hspace : spaceFrom c.ad e = m.spaceFrom (iolReads c.ad e) := by
    rw [spaceFrom, Medium.spaceFrom, h.recorded, h.currentSize_eq]
  have hkept : Kept e c ↔ logMap (m.mapWrite (iolReads c.ad e) c).2.log =
      if (m.mapWrite (iolReads c.ad e) c).1 then overlay c (logMap m.log) else logMap m.log := by
    constructor
    · intro hk
      have hnone : ({} : Adapter).Faithful := faithful_of_none fun _ => rfl
      have hmaps := hk {} {} hnone hnone
      rwa [step, hrefines.wholeMap_eq hnone, h.wholeMap_eq hnone, hok] at hmaps
    · intro hmaps ad ad' had had'
      rwa [step, hrefines.wholeMap_eq had', h.wholeMap_eq had, hok]
  rw [hkept, mapWrite_map_iff]
  simp only [Fits, hspace, h.wholeMap_eq had, h.currentSize_eq]
  rfl

theorem run_refines {cs : List MapWrite} (hcs : ∀ c ∈ cs, c.ad.Faithful) {e : Efuse} {m : Medium}
    (h : Refines e m) : ∃ m', Refines (run step e cs) m' := by
  induction cs generalizing e m with
  | nil => exact ⟨m, h⟩
  | cons c cs ih =>
    exact ih (fun c' hc' => hcs c' (List.mem_cons_of_mem c hc'))
      (rtwEfuseMapWrite_refines (hcs c List.mem_cons_self) h).2

theorem along_iff {cs : List MapWrite} (hcs : ∀ c ∈ cs, c.ad.Faithful) {e : Efuse} {m : Medium}
    (h : Refines e m) : Along step Kept e cs ↔ Along step Fits e cs := by
  induction cs generalizing e m with
  | nil => exact Iff.rfl
  | cons c cs ih =>
    exact and_congr (kept_iff_fits h (hcs c List.mem_cons_self))
      (ih (fun c' hc' => hcs c' (List.mem_cons_of_mem c hc'))
        (rtwEfuseMapWrite_refines (hcs c List.mem_cons_self) h).2)

/-- Map writes from a blank efuse on: all of them keep to the map exactly if each one that
is let through leaves room for its last packet. -/
theorem run_map_iff (cs : List MapWrite) (hcs : ∀ c ∈ cs, c.ad.Faithful) :
    Along step Kept blank cs ↔ Along step Fits blank cs :=
  along_iff hcs refines_blank

theorem fits_of_registers (e : Efuse) {c : MapWrite} (hreg : c.ad.fwIol ≠ 1) : Fits e c := by
  have hspace : spaceFrom c.ad e = currentSizeLoop e.cells 0 := by
    rw [spaceFrom, if_neg]
    rintro ⟨hiol, -⟩
    simp [iolReads, rtwIOLApplied, hreg] at hiol
  intro _ _ hlt
  rw [hspace] at hlt
  generalize packets (wholeMap c.ad e) (overlay c (wholeMap c.ad e)) = need at hlt ⊢
  have hsize : size enc need.dropLast ≤ size enc need := by
    obtain ⟨last, hneed⟩ := List.dropLast_prefix need
    have happend := size_append enc need.dropLast last
    rw [hneed] at happend
    omega
  omega

theorem registers_keep_map {cs : List MapWrite} (hcs : ∀ c ∈ cs, c.ad.Faithful)
    (hreg : ∀ c ∈ cs, c.ad.fwIol ≠ 1) : Along step Kept blank cs := by
  rw [along_iff hcs refines_blank]
  generalize blank = e
  clear hcs
  induction cs generalizing e with
  | nil => trivial
  | cons c cs ih =>
    exact ⟨fits_of_registers e (hreg c List.mem_cons_self),
      ih (fun c' hc' => hreg c' (List.mem_cons_of_mem c hc')) _⟩

def copyCells (cells : ℕ → UInt8) : Option (ℕ → UInt8) :=
  some fun k => if k = 0 then 2 else if k = 1 then 1 else cells (k - 2)

def iolAdapter : Adapter := { boffefusemask := true, cmdReadEfuseMap := copyCells }

theorem iolAdapter_faithful : iolAdapter.Faithful := by
  intro cells buf hbuf
  cases hbuf
  refine ⟨256, Nat.le_refl _, by decide, rfl, ?_⟩
  intro i hi
  simp

def fill : MapWrite := ⟨iolAdapter, 128, 184, fun _ => 0⟩

def spill : MapWrite := ⟨iolAdapter, 480, 10, fun _ => 0⟩

theorem run_map_iff_spill :
    Along step Kept blank [fill, spill] ↔ Along step Fits blank [fill, spill] := by
  refine run_map_iff [fill, spill] ?_
  simp only [List.mem_cons, List.not_mem_nil, or_false]
  rintro c (rfl | rfl) <;> exact iolAdapter_faithful

def filled : Medium := (Medium.mapWrite ⟨[], 0⟩ true fill).2

theorem refines_filled : Refines (step blank fill) filled :=
  (rtwEfuseMapWrite_refines iolAdapter_faithful refines_blank).2

theorem filled_spill :
    (filled.mapWrite true spill).1 = false ∧ logMap filled.log 480 = 0xFF ∧
      logMap (filled.mapWrite true spill).2.log 480 = 0 := by
  decide +kernel

/-- The size on record is that before the last packet, so the second call is let through.
Its first packet is written, and for its second one there is no room: the call fails, and
the map has changed. -/
theorem spill_changes_map :
    iolAdapter.Faithful ∧ fill.addr + fill.cnts ≤ efuseMapLen88E ∧
      spill.addr + spill.cnts ≤ efuseMapLen88E ∧
      (rtwEfuseMapWrite (step blank fill) spill).1 = false ∧
      wholeMap iolAdapter (step blank fill) 480 = 0xFF ∧
      wholeMap iolAdapter (step (step blank fill) spill) 480 = 0 ∧
      ¬ Along step Kept blank [fill, spill] := by
  have hiol : iolReads spill.ad (step blank fill) = true := rfl
  obtain ⟨hfalse, hbefore, hafter⟩ := filled_spill
  obtain ⟨hok, hspill⟩ := rtwEfuseMapWrite_refines iolAdapter_faithful refines_filled (c := spill)
  rw [hiol] at hok hspill
  have hfails := hok.trans hfalse
  have hold : wholeMap iolAdapter (step blank fill) 480 = 0xFF := by
    rw [refines_filled.wholeMap_eq iolAdapter_faithful, hbefore]
  have hnew : wholeMap iolAdapter (step (step blank fill) spill) 480 = 0 := by
    rw [step, hspill.wholeMap_eq iolAdapter_faithful, hafter]
  refine ⟨iolAdapter_faithful, by decide, by decide, hfails, hold, hnew, ?_⟩
  rintro ⟨-, hkept, -⟩
  have hmaps := congrFun
    (hkept iolAdapter iolAdapter iolAdapter_faithful iolAdapter_faithful) 480
  rw [hfails, if_neg Bool.false_ne_true, hold, hnew] at hmaps
  exact absurd hmaps (by decide)

end Rtl8189.EfuseRun
