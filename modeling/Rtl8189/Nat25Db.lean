import Rtl8189.EventRun
import Rtl8189.Nat25Table

/-!
# Lookups and inserts of the NAT2.5 database

`nat25_db_handle` on IPv4, ARP and IPv6 frames, and what the table stands for: a map
from network addresses to the client that was inserted last and the time of that
insert. What is rewritten in the payload of a neighbour discovery message is left out.
-/
namespace Rtl8189.Nat25Db

open EventRun Nat25Table

inductive Nat25Method where
  | check
  | insert
  | lookup
  | parse

def Skb.protocol (skb : Skb) : ℕ := 256 * (skb.data 12).toNat + (skb.data 13).toNat

def ethPIp : ℕ := 0x0800

def ethPArp : ℕ := 0x0806

def ethPIpv6 : ℕ := 0x86dd

def malformedIp (skb : Skb) : Prop := skb.len ≤ 4 * ((skb.data 14).toNat % 16)

def malformedIpv6 (skb : Skb) : Prop := (skb.len + (2 ^ 32 - 14)) % 2 ^ 32 ≤ 40

instance (skb : Skb) : Decidable (malformedIp skb) := inferInstanceAs (Decidable (_ ≤ _))

instance (skb : Skb) : Decidable (malformedIpv6 skb) := inferInstanceAs (Decidable (_ ≤ _))

def ipSaddr (skb : Skb) : IpAddr := skb.ip 26

def ipDaddr (skb : Skb) : IpAddr := skb.ip 30

def ipv6Saddr (skb : Skb) : Vector UInt8 16 := Vector.ofFn fun i => skb.data (22 + i)

def ipv6Daddr (skb : Skb) : Vector UInt8 16 := Vector.ofFn fun i => skb.data (38 + i)

def arpPro (skb : Skb) : ℕ := 256 * (skb.data 16).toNat + (skb.data 17).toNat

def arpHln (skb : Skb) : ℕ := (skb.data 18).toNat

def arpPln (skb : Skb) : ℕ := (skb.data 19).toNat

/-- `netdev_br_init`, when the bridge's address is not known yet. -/
def reinitBr (c : Config) (s : Priv) : Priv :=
  if s.brMac = Vector.replicate 6 0 then { s with brMac := c.brDev.getD s.brMac } else s

def handleIp (c : Config) (now : ℕ) (alloc : Option ℕ) (s : Priv) (skb : Skb) :
    Nat25Method → Done
  | .check => ⟨-1, skb, s⟩
  | .insert =>
    if ipSaddr skb = Vector.replicate 4 0 then ⟨0, skb, s⟩
    else
      let a := nat25GenerateIpv4NetworkAddr (ipSaddr skb)
      ⟨0, skb, nat25DbNetworkInsert now alloc s (skb.mac 6) a⟩
  | .lookup =>
    let a := nat25GenerateIpv4NetworkAddr (ipDaddr skb)
    let (found, skb', s') := nat25DbNetworkLookupAndReplace c now s skb a
    if found then ⟨0, skb', s'⟩
    -- L2 is unicast but L3 is broadcast
    else if (ipDaddr skb)[3] = 0xff then ⟨0, skb'.putMac 0 (Vector.replicate 6 0xff), s'⟩
    else
      let s' := reinitBr c s'
      ⟨0, skb'.putMac 0 s'.brMac, s'⟩
  | .parse => ⟨-1, skb, s⟩

def handleArp (c : Config) (now : ℕ) (alloc : Option ℕ) (s : Priv) (skb : Skb) :
    Nat25Method → Done
  | .check => ⟨0, skb, s⟩
  | .insert =>
    let skb' := skb.putMac 22 c.myHwaddr
    let a := nat25GenerateIpv4NetworkAddr (skb'.ip (22 + arpHln skb))
    ⟨0, skb', nat25DbNetworkInsert now alloc s (skb'.mac 6) a⟩
  | .lookup =>
    let target := 22 + arpHln skb + (arpHln skb + arpPln skb)
    let a := nat25GenerateIpv4NetworkAddr (skb.ip target)
    let (_, skb', s') := nat25DbNetworkLookupAndReplace c now s skb a
    ⟨0, skb'.putMac (22 + (arpHln skb + arpPln skb)) (skb'.mac 0), s'⟩
  | .parse => ⟨-1, skb, s⟩

def handleIpv6 (c : Config) (now : ℕ) (alloc : Option ℕ) (s : Priv) (skb : Skb) :
    Nat25Method → Done
  | .check => ⟨if (skb.data 0).toNat % 2 = 1 then 0 else -1, skb, s⟩
  | .insert =>
    if ipv6Saddr skb = Vector.replicate 16 0 then ⟨0, skb, s⟩
    else
      let a := nat25GenerateIpv6NetworkAddr (ipv6Saddr skb)
      ⟨0, skb, nat25DbNetworkInsert now alloc s (skb.mac 6) a⟩
  | .lookup =>
    let a := nat25GenerateIpv6NetworkAddr (ipv6Daddr skb)
    let (_, skb', s') := nat25DbNetworkLookupAndReplace c now s skb a
    ⟨0, skb', s'⟩
  | .parse => ⟨-1, skb, s⟩

/-- `alloc` is the memory the allocator has for a new entry. -/
def nat25DbHandle (c : Config) (now : ℕ) (alloc : Option ℕ) (s : Priv) (skb : Skb)
    (method : Nat25Method) : Done :=
  if Skb.protocol skb = ethPIp then
    if malformedIp skb then ⟨-1, skb, s⟩ else handleIp c now alloc s skb method
  else if Skb.protocol skb = ethPArp then
    if arpPro skb ≠ ethPIp then ⟨-1, skb, s⟩ else handleArp c now alloc s skb method
  else if Skb.protocol skb = ethPIpv6 then
    if malformedIpv6 skb then ⟨-1, skb, s⟩ else handleIpv6 c now alloc s skb method
  else ⟨-1, skb, s⟩

inductive Op where
  | insert (skb : Skb) (alloc : Option ℕ)
  | lookup (skb : Skb)
  | expire
  | cleanup

structure Call where
  now : ℕ
  op : Op

def step (c : Config) (s : Priv) (e : Call) : Priv :=
  match e.op with
  | .insert skb alloc => (nat25DbHandle c e.now alloc s skb .insert).priv
  | .lookup skb => (nat25DbHandle c e.now none s skb .lookup).priv
  | .expire => nat25DbExpire c e.now s
  | .cleanup => nat25DbCleanup s

/-! ## The map -/

abbrev ClientMap := NetworkAddr → Option (MacAddr × ℕ)

def insertAddr (c : Config) (skb : Skb) : Option NetworkAddr :=
  if Skb.protocol skb = ethPIp then
    if malformedIp skb ∨ ipSaddr skb = Vector.replicate 4 0 then none
    else some (nat25GenerateIpv4NetworkAddr (ipSaddr skb))
  else if Skb.protocol skb = ethPArp then
    if arpPro skb ≠ ethPIp then none
    else
      some (nat25GenerateIpv4NetworkAddr ((skb.putMac 22 c.myHwaddr).ip (22 + arpHln skb)))
  else if Skb.protocol skb = ethPIpv6 then
    if malformedIpv6 skb ∨ ipv6Saddr skb = Vector.replicate 16 0 then none
    else some (nat25GenerateIpv6NetworkAddr (ipv6Saddr skb))
  else none

def mapStep (c : Config) (m : ClientMap) (e : Call) : ClientMap :=
  match e.op with
  | .insert skb _ =>
    match insertAddr c skb with
    | none => m
    | some a => Function.update m a (some (skb.mac 6, e.now))
  | .cleanup => fun _ => none
  | _ => m

/-- The entries are among the clients of the map, and none that is young is missing. -/
structure Refines (c : Config) (now : ℕ) (s : Priv) (m : ClientMap) : Prop where
  entry : ∀ p ∈ s.live, ∃ t ≤ now, (s.entry p).ageingTimer = jiffies t ∧
    m (s.entry p).networkAddr = some ((s.entry p).macAddr, t)
  young : ∀ a mac t, m a = some (mac, t) → now - t < nat25AgeingTime * c.hz →
    ∃ p ∈ s.live, (s.entry p).networkAddr = a

def Stored (c : Config) (s : Priv) (e : Call) : Prop :=
  match e.op with
  | .insert skb alloc =>
    ∀ a, insertAddr c skb = some a → s.lookup a ≠ none ∨ rtwMalloc s alloc ≠ none
  | _ => True

variable {c : Config} {now : ℕ} {s t : Priv} {m : ClientMap} {b : Hash → List ℕ}

/-! ## What a call does to the table -/

theorem putMac_mac (skb : Skb) (mac : MacAddr) : (skb.putMac 22 mac).mac 6 = skb.mac 6 := by
  ext i hi
  have hout : ¬ (22 ≤ 6 + i ∧ 6 + i < 22 + 6) := by omega
  simp [Skb.mac, Skb.putMac, hout]

theorem insert_priv (alloc : Option ℕ) (s : Priv) (skb : Skb) :
    (nat25DbHandle c now alloc s skb .insert).priv =
      match insertAddr c skb with
      | none => s
      | some a => nat25DbNetworkInsert now alloc s (skb.mac 6) a := by
  simp only [nat25DbHandle, insertAddr, handleIp, handleArp, handleIpv6, putMac_mac]
  by_cases hip : Skb.protocol skb = ethPIp
  · simp only [if_pos hip]
    by_cases hbad : malformedIp skb
    · simp only [hbad, if_true, true_or]
    · simp only [hbad, if_false, false_or]
      split_ifs <;> rfl
  · simp only [if_neg hip]
    by_cases harp : Skb.protocol skb = ethPArp
    · simp only [if_pos harp]
      split_ifs <;> rfl
    · simp only [if_neg harp]
      by_cases hv6 : Skb.protocol skb = ethPIpv6
      · simp only [if_pos hv6]
        by_cases hbad : malformedIpv6 skb
        · simp only [hbad, if_true, true_or]
        · simp only [hbad, if_false, false_or]
          split_ifs <;> rfl
      · simp only [if_neg hv6]

theorem reinitBr_same (c : Config) (s : Priv) : SameTable s (reinitBr c s) := by
  simp only [reinitBr]
  split_ifs
  · exact ⟨rfl, rfl, rfl, fun _ => rfl, fun _ => rfl, fun _ => rfl⟩
  · exact .refl s

theorem lookup_same (c : Config) (now : ℕ) (alloc : Option ℕ) (s : Priv) (skb : Skb) :
    SameTable s (nat25DbHandle c now alloc s skb .lookup).priv := by
  have hip : SameTable s (handleIp c now alloc s skb .lookup).priv := by
    have hsame := lookupAndReplace_same c now s skb (nat25GenerateIpv4NetworkAddr (ipDaddr skb))
    simp only [handleIp]
    split_ifs
    · exact hsame
    · exact hsame
    · exact hsame.trans (reinitBr_same c _)
  simp only [nat25DbHandle]
  split_ifs
  · exact .refl s
  · exact hip
  · exact .refl s
  · exact lookupAndReplace_same c now s skb _
  · exact .refl s
  · exact lookupAndReplace_same c now s skb _
  · exact .refl s

theorem sound_step (h : Sound s b) (e : Call) : ∃ b', Sound (step c s e) b' := by
  obtain ⟨now, op⟩ := e
  cases op with
  | insert skb alloc =>
    simp only [step, insert_priv]
    split
    · exact ⟨b, h⟩
    · exact h.insert now alloc _ _
  | lookup skb => exact ⟨b, h.same (lookup_same c now none s skb)⟩
  | expire =>
    obtain ⟨b', hsound, -⟩ :=
      expire_spec (P := fun _ => True) c now h trivial fun _ _ _ _ _ _ => trivial
    exact ⟨b', hsound⟩
  | cleanup => exact h.cleanup

theorem run_keeps_sound (h : Sound s b) (es : List Call) : ∃ b', Sound (run (step c) s es) b' := by
  refine run_invariant (fun s => ∃ b, Sound s b) ?_ ⟨b, h⟩ es
  rintro s e ⟨b, hs⟩
  exact sound_step hs e

/-! ## What the table stands for -/

theorem Refines.mono (h : Refines c now s m) {later : ℕ} (hle : now ≤ later) :
    Refines c later s m where
  entry p hp := by
    obtain ⟨t, ht, hentry⟩ := h.entry p hp
    exact ⟨t, ht.trans hle, hentry⟩
  young a mac t hm hyoung := h.young a mac t hm (by omega)

theorem Refines.same (h : Refines c now s m) (hst : SameTable s t) : Refines c now t m where
  entry p hp := by
    rw [hst.live] at hp
    rw [hst.ageingTimer, hst.networkAddr, hst.macAddr]
    exact h.entry p hp
  young a mac u hm hyoung := by
    obtain ⟨p, hp, haddr⟩ := h.young a mac u hm hyoung
    exact ⟨p, hst.live.symm ▸ hp, (hst.networkAddr p).trans haddr⟩

theorem Refines.insert (hb : Sound s b) (h : Refines c now s m) {alloc : Option ℕ}
    {a : NetworkAddr} (mac : MacAddr) (hstored : s.lookup a ≠ none ∨ rtwMalloc s alloc ≠ none) :
    Refines c now (nat25DbNetworkInsert now alloc s mac a)
      (Function.update m a (some (mac, now))) := by
  obtain ⟨p, hins⟩ := hb.inserted now mac hstored
  refine ⟨?_, ?_⟩
  · intro q hq
    by_cases hqp : q = p
    · rw [hqp, hins.networkAddr, hins.macAddr, hins.ageingTimer, Function.update_self]
      exact ⟨now, Nat.le_refl _, rfl, rfl⟩
    · have hqlive := ((hins.live q).mp hq).resolve_left hqp
      rw [hins.rest q hqp, Function.update_of_ne fun haddr => hqp ((hins.only q hqlive).mp haddr)]
      exact h.entry q hqlive
  · intro a' mac' t hm hyoung
    by_cases ha : a' = a
    · exact ⟨p, (hins.live p).mpr (.inl rfl), hins.networkAddr.trans ha.symm⟩
    · rw [Function.update_of_ne ha] at hm
      obtain ⟨q, hq, hqa⟩ := h.young a' mac' t hm hyoung
      have hqp : q ≠ p := fun hqp => ha (hqa.symm.trans ((hins.only q hq).mpr hqp))
      exact ⟨q, (hins.live q).mpr (.inr hq), by rw [hins.rest q hqp, hqa]⟩

theorem Refines.expire (h : Refines c now s m) {f : ℕ} (hf : f ∈ s.live) :
    Refines c now (expireEntry c now s f) m := by
  obtain ⟨t, ht, htimer, hm⟩ := h.entry f hf
  simp only [expireEntry]
  split_ifs with hexp hzero
  · have hold : ¬ now - t < nat25AgeingTime * c.hz := by
      intro hyoung
      rw [not_hasExpired c (s.entry f) htimer ht hyoung] at hexp
      cases hexp
    have hsame := setEntry_same s f ((s.entry f).useCount - 1)
    have h' := h.same hsame
    refine ⟨?_, ?_⟩
    · intro p hp
      rw [freeEntry_entry]
      rw [freeEntry_live] at hp
      exact h'.entry p (List.mem_of_mem_erase hp)
    · intro a mac u hma hyoung
      obtain ⟨p, hp, hpa⟩ := h'.young a mac u hma hyoung
      rw [freeEntry_entry, freeEntry_live]
      refine ⟨p, (List.mem_erase_of_ne ?_).mpr hp, hpa⟩
      rintro rfl
      have hpa := (hsame.networkAddr p).symm.trans hpa
      rw [← hpa, hm] at hma
      obtain ⟨-, rfl⟩ := Prod.mk.inj (Option.some.inj hma)
      exact hold hyoung
  · exact h.same (setEntry_same s f ((s.entry f).useCount - 1))
  · exact h

theorem refines_step (hb : Sound s b) {e : Call} (h : Refines c e.now s m) (he : Stored c s e) :
    Refines c e.now (step c s e) (mapStep c m e) := by
  obtain ⟨now, op⟩ := e
  cases op with
  | insert skb alloc =>
    simp only [step, mapStep, insert_priv]
    cases ha : insertAddr c skb with
    | none => exact h
    | some a => exact h.insert hb _ (he a ha)
  | lookup skb => exact h.same (lookup_same c now none s skb)
  | expire =>
    obtain ⟨b', -, hrefines⟩ := expire_spec (P := fun s => Refines c now s m) c now hb h
      fun _ _ _ _ hf h => h.expire hf
    exact hrefines
  | cleanup =>
    have hlive : (nat25DbCleanup s).live = [] := cleanup_live hb
    refine ⟨?_, nofun⟩
    intro p hp
    rw [step, hlive] at hp
    cases hp

theorem run_refines (hb : Sound s b) (h : Refines c now s m) {es : List Call} {later : ℕ}
    (hnow : ∀ e ∈ es, now ≤ e.now) (hsorted : (es.map Call.now).Pairwise (· ≤ ·))
    (hlater : ∀ e ∈ es, e.now ≤ later) (hle : now ≤ later) (hes : Along (step c) (Stored c) s es) :
    Refines c later (run (step c) s es) (run (mapStep c) m es) := by
  induction es generalizing s m b now with
  | nil => exact h.mono hle
  | cons e es ih =>
    rw [List.map_cons, List.pairwise_cons] at hsorted
    obtain ⟨b', hb'⟩ := sound_step (c := c) hb e
    refine ih hb' (refines_step hb (h.mono (hnow e List.mem_cons_self)) hes.1) ?_ hsorted.2 ?_
      (hlater e List.mem_cons_self) hes.2
    · intro e' he'
      exact hsorted.1 _ (List.mem_map_of_mem he')
    · exact fun e' he' => hlater e' (List.mem_cons_of_mem e he')

/-! ## What a lookup answers -/

def bridgeMac (c : Config) (s : Priv) : MacAddr := (reinitBr c s).brMac

/-- Where a frame to `ip` goes: to the client that was inserted last, if that was less
than the ageing time ago, else to all or to the bridge. -/
def destination (c : Config) (now : ℕ) (bridge : MacAddr) (m : ClientMap) (ip : IpAddr) : MacAddr :=
  let unknown := if ip[3] = 0xff then Vector.replicate 6 0xff else bridge
  match m (nat25GenerateIpv4NetworkAddr ip) with
  | none => unknown
  | some (mac, t) => if now - t < nat25AgeingTime * c.hz then mac else unknown

def Unaged (c : Config) (now : ℕ) (s : Priv) (m : ClientMap) (ip : IpAddr) : Prop :=
  ∀ mac t, m (nat25GenerateIpv4NetworkAddr ip) = some (mac, t) →
    s.lookup (nat25GenerateIpv4NetworkAddr ip) ≠ none → now - t < nat25AgeingTime * c.hz

theorem putMac_self (skb : Skb) (mac : MacAddr) : (skb.putMac 0 mac).mac 0 = mac := by
  ext i hi
  simp [Skb.mac, Skb.putMac]

theorem lookup_destination (hb : Sound s b) (h : Refines c now s m) {skb : Skb}
    (hip : Skb.protocol skb = ethPIp) (hlen : ¬ malformedIp skb)
    (haged : Unaged c now s m (ipDaddr skb)) :
    (nat25DbHandle c now none s skb .lookup).skb.mac 0 =
      destination c now (bridgeMac c s) m (ipDaddr skb) := by
  simp only [nat25DbHandle, if_pos hip, if_neg hlen, handleIp]
  cases hl : s.lookup (nat25GenerateIpv4NetworkAddr (ipDaddr skb)) with
  | some p =>
    obtain ⟨hp, haddr⟩ := hb.lookup_eq_some.mp hl
    obtain ⟨t, ht, htimer, hm⟩ := h.entry p hp
    rw [haddr] at hm
    have hyoung := haged _ t hm (hl ▸ Option.some_ne_none p)
    have hexp := not_hasExpired c (s.entry p) htimer ht hyoung
    have hfound : nat25DbNetworkLookupAndReplace c now s skb
        (nat25GenerateIpv4NetworkAddr (ipDaddr skb)) = (true, skb.putMac 0 (s.entry p).macAddr,
          s.setEntry p { s.entry p with useCount := (s.entry p).useCount + 1 }) := by
      simp only [nat25DbNetworkLookupAndReplace, hl, hexp, Bool.false_eq_true, if_false]
    simp only [hfound, if_true, putMac_self, destination, hm, if_pos hyoung]
  | none =>
    have hnot : nat25DbNetworkLookupAndReplace c now s skb
        (nat25GenerateIpv4NetworkAddr (ipDaddr skb)) = (false, skb, s) := by
      simp only [nat25DbNetworkLookupAndReplace, hl]
    have hunknown : destination c now (bridgeMac c s) m (ipDaddr skb) =
        if (ipDaddr skb)[3] = 0xff then Vector.replicate 6 0xff else bridgeMac c s := by
      simp only [destination]
      split
      · rfl
      · next mac t hm =>
        rw [if_neg]
        intro hyoung
        obtain ⟨p, hp, hpa⟩ := h.young _ mac t hm hyoung
        exact hb.lookup_eq_none.mp hl p hp hpa
    simp only [hnot, Bool.false_eq_true, if_false, hunknown]
    split_ifs
    · exact putMac_self _ _
    · exact putMac_self _ _

def initPriv (brMac : MacAddr) (brIp : IpAddr) : Priv := { brMac := brMac, brIp := brIp }

theorem initPriv_sound (brMac : MacAddr) (brIp : IpAddr) :
    Sound (initPriv brMac brIp) fun _ => [] where
  chained _ := rfl
  houses := by
    have hhome : (initPriv brMac brIp).home = fun _ => none := by
      funext p
      exact home_eq_none.mpr List.not_mem_nil
    rw [hhome]
    exact HashBuckets.houses_empty
  nodup := List.nodup_nil
  unique := nofun
  cached := nofun

/-- After every run the chains are sound, and as long as there was memory they hold
what was inserted last. A lookup then answers from that, unless it meets an aged
entry. -/
theorem lookups_answer (c : Config) (brMac : MacAddr) (brIp : IpAddr) (es : List Call)
    (hes : (es.map Call.now).Pairwise (· ≤ ·)) :
    (∃ b, Sound (run (step c) (initPriv brMac brIp) es) b) ∧
    (Along (step c) (Stored c) (initPriv brMac brIp) es →
      ∀ now, (∀ e ∈ es, e.now ≤ now) →
        let s := run (step c) (initPriv brMac brIp) es
        let m := run (mapStep c) (fun _ => none) es
        Refines c now s m ∧
        ∀ skb, Skb.protocol skb = ethPIp → ¬ malformedIp skb →
          Unaged c now s m (ipDaddr skb) →
          (nat25DbHandle c now none s skb .lookup).skb.mac 0 =
            destination c now (bridgeMac c s) m (ipDaddr skb)) := by
  have hinit := initPriv_sound brMac brIp
  obtain ⟨b, hb⟩ := run_keeps_sound (c := c) hinit es
  refine ⟨⟨b, hb⟩, ?_⟩
  intro hstored now hnow
  have hempty : Refines c 0 (initPriv brMac brIp) fun _ => none := ⟨nofun, nofun⟩
  have hrefines := run_refines hinit hempty (fun _ _ => Nat.zero_le _) hes hnow
    (Nat.zero_le _) hstored
  refine ⟨hrefines, ?_⟩
  intro skb hip hlen haged
  exact lookup_destination hb hrefines hip hlen haged

/-! ## An aged entry -/

def ipFrame (da sa : MacAddr) (saddr daddr : IpAddr) : Skb :=
  let bytes := da.toList ++ sa.toList ++ [0x08, 0x00, 0x45, 0, 0, 28, 0, 0, 0, 0, 64, 17, 0, 0] ++
    saddr.toList ++ daddr.toList ++ [0, 53, 0, 53, 0, 8, 0, 0]
  { data := fun k => bytes.getD k 0, len := bytes.length }

def station : MacAddr := macOf 0x00 0xe0 0x4c 0x00 0x00 0x01

def clientA : MacAddr := macOf 0x02 0x00 0x00 0x00 0x00 0x0a

def gateway : MacAddr := macOf 0x02 0x00 0x00 0x00 0x00 0xff

def bridge : MacAddr := macOf 0x02 0x00 0x00 0x00 0x00 0x01

def hundredHz : Config where
  hz := 100
  hz_le := by decide
  myHwaddr := station

def hostAddr (n : UInt8) : Vector UInt8 4 := #v[10, 0, 0, n]

def fromClient : Skb := ipFrame gateway clientA (hostAddr 2) (hostAddr 1)

def toClient : Skb := ipFrame station gateway (hostAddr 1) (hostAddr 2)

def oneInsert : List Call := [⟨0, .insert fromClient (some 0)⟩]

def afterInsert : Priv := run (step hundredHz) (initPriv bridge (hostAddr 254)) oneInsert

/-- A second before the client ages. -/
theorem lookups_answer_client :
    (nat25DbHandle hundredHz 29900 none afterInsert toClient .lookup).skb.mac 0 = clientA := by
  have hrun := (lookups_answer hundredHz bridge #v[10, 0, 0, 254] oneInsert (by decide)).2
    ⟨fun a _ => .inr (by decide), trivial⟩ 29900 (by decide)
  refine (hrun.2 toClient (by decide) (by decide) ?_).trans (by decide)
  intro mac t hm _
  have hknown : run (mapStep hundredHz) (fun _ => none) oneInsert
      (nat25GenerateIpv4NetworkAddr (ipDaddr toClient)) = some (clientA, 0) := by decide
  obtain ⟨-, rfl⟩ := Prod.mk.inj (Option.some.inj (hknown.symm.trans hm))
  decide

/-- Three hundred seconds later the frame keeps the station's address. -/
theorem aged_entry_kept :
    (nat25DbHandle hundredHz 30000 none afterInsert toClient .lookup).skb.mac 0 = station ∧
    destination hundredHz 30000 (bridgeMac hundredHz afterInsert)
      (run (mapStep hundredHz) (fun _ => none) oneInsert) #v[10, 0, 0, 2] = bridge := by
  decide

end Rtl8189.Nat25Db
