import Rtl8189.Nat25Db

/-!
# The NAT2.5 single-client shortcut

`rtw_br_client_tx` keeps the address, the MAC address and the entry of one client beside
the table, and `nat25_handle_frame` answers for that address without the table. With
`nat25sc_disable` it asks the table.
-/
namespace Rtl8189.Nat25Shortcut

open EventRun Nat25Table Nat25Db

structure BrExtInfo where
  nat25Disable : Bool := false
  nat25scDisable : Bool := false

def ethP8021q : ℕ := 0x8100

def Skb.untag (skb : Skb) : Skb where
  data k := if k < 12 then skb.data k else skb.data (k + 4)
  len := skb.len - 4

def Skb.retag (skb old : Skb) : Skb where
  data k := if k < 12 then skb.data k else if k < 16 then old.data k else skb.data (k - 4)
  len := skb.len + 4

def isVlanTag (skb : Skb) : Prop := Skb.protocol skb = ethP8021q

instance (skb : Skb) : Decidable (isVlanTag skb) := inferInstanceAs (Decidable (_ = _))

def inner (skb : Skb) : Skb := if isVlanTag skb then Skb.untag skb else skb

def outer (skb old : Skb) : Skb := if isVlanTag old then Skb.retag skb old else skb

def isUnicast (skb : Skb) : Prop := (skb.data 0).toNat % 2 = 0

instance (skb : Skb) : Decidable (isUnicast skb) := inferInstanceAs (Decidable (_ = _))

/-- `scdb_entry->ageing_timer = jiffies` -/
def refresh (now : ℕ) (s : Priv) (p : ℕ) : Priv :=
  s.setEntry p { s.entry p with ageingTimer := jiffies now }

/-- The client of an IPv4 frame is compared with the cached one and cached if its address
has an entry; then the frame is not inserted. -/
def cacheClient (now : ℕ) (s : Priv) (skb : Skb) : Bool × Priv :=
  if s.scdbMac ≠ skb.mac 6 then
    match s.lookup (nat25GenerateIpv4NetworkAddr (ipSaddr skb)) with
    | none => (true, { s with scdbEntry := none })
    | some p =>
      let s := { s with scdbEntry := some p, scdbMac := skb.mac 6, scdbIp := ipSaddr skb }
      (false, refresh now s p)
  else
    match s.scdbEntry with
    | some p => (false, refresh now s p)
    | none =>
      (true, { s with scdbMac := Vector.replicate 6 0, scdbIp := Vector.replicate 4 0 })

/-- What can fail on the way of a frame: the memory for an entry, the copy of the frame and
its linearisation. -/
structure TxEnv where
  alloc : Option ℕ := none
  copy : Bool := true
  linearize : Bool := true

/-- The frame is inserted, or dropped on the way (`none`). -/
def insertFrame (c : Config) (now : ℕ) (env : TxEnv) (s : Priv) (skb : Skb) : Option Done :=
  if (nat25DbHandle c now env.alloc s skb .check).ret = 0 ∧ env.copy = false then none
  else if env.linearize = false then none
  else some (nat25DbHandle c now env.alloc s skb .insert)

/-- The entry of a frame that comes from the cached client, below a bridge (`br_port`). -/
def cachedEntry (brPort : Bool) (s : Priv) (skb : Skb) : Option ℕ :=
  if isUnicast skb ∧ brPort = true ∧ skb.mac 6 ≠ s.brMac ∧ ¬ isVlanTag skb ∧
      Skb.protocol skb = ethPIp ∧ s.scdbMac = skb.mac 6 then
    s.scdbEntry
  else none

def beforeInsert (now : ℕ) (s : Priv) (frame : Skb) : Bool × Priv :=
  let s :=
    if frame.mac 6 = s.brMac ∧ Skb.protocol frame = ethPIp then { s with brIp := ipSaddr frame }
    else s
  if Skb.protocol frame = ethPIp then cacheClient now s frame else (true, s)

/-- What `dhcp_flag_bcast` changes in a DHCP request is left out, and so is the check of the
source address at the end, which every frame passes that gets there. -/
def rtwBrClientTx (c : Config) (brPort : Bool) (now : ℕ) (env : TxEnv) (s : Priv) (skb : Skb) :
    Done :=
  match cachedEntry brPort s skb with
  | some p => ⟨0, skb.putMac 6 c.myHwaddr, refresh now s p⟩
  | none =>
    let frame := inner skb
    let (doNat25, s) := beforeInsert now s frame
    if doNat25 then
      match insertFrame c now env s frame with
      | none => ⟨-1, skb, s⟩
      | some done =>
        if done.ret < 0 then ⟨0, done.skb, done.priv⟩
        else ⟨0, outer (done.skb.putMac 6 c.myHwaddr) skb, done.priv⟩
    else ⟨0, outer (frame.putMac 6 c.myHwaddr) skb, s⟩

def lookupFrame (c : Config) (ext : BrExtInfo) (now : ℕ) (s : Priv) (frame : Skb) : Done :=
  if ext.nat25Disable = false then
    if ext.nat25scDisable = false ∧ Skb.protocol frame = ethPIp ∧ s.scdbIp = ipDaddr frame then
      ⟨0, frame.putMac 0 s.scdbMac, s⟩
    else nat25DbHandle c now none s frame .lookup
  else
    -- for traffic to upper TCP/IP
    if Skb.protocol frame = ethPIp ∧ s.brIp = ipDaddr frame ∨
        Skb.protocol frame = ethPArp ∧ s.brIp = frame.ip 38 then
      nat25DbHandle c now none s frame .lookup
    else ⟨0, frame, s⟩

def nat25HandleFrame (c : Config) (ext : BrExtInfo) (now : ℕ) (s : Priv) (skb : Skb) : Done :=
  if isUnicast skb then
    let done := lookupFrame c ext now s (inner skb)
    ⟨if done.ret = -1 then -1 else 0, outer done.skb skb, done.priv⟩
  else ⟨0, skb, s⟩

inductive Frame where
  | sent (skb : Skb) (env : TxEnv)
  | received (skb : Skb)

/-- A frame of a client or of the AP, at a time in jiffies. -/
structure Event where
  now : ℕ
  frame : Frame

def step (c : Config) (brPort : Bool) (ext : BrExtInfo) (s : Priv) (e : Event) : Priv :=
  match e.frame with
  | .sent skb env => (rtwBrClientTx c brPort e.now env s skb).priv
  | .received skb => (nat25HandleFrame c ext e.now s skb).priv

/-! ## Runs that differ in use counts -/

structure Sim (s t : Priv) : Prop extends SameTable s t where
  scdbMac : t.scdbMac = s.scdbMac
  scdbIp : t.scdbIp = s.scdbIp
  brMac : t.brMac = s.brMac
  brIp : t.brIp = s.brIp

variable {c : Config} {brPort : Bool} {s t : Priv} {a : NetworkAddr}

theorem Sim.refl (s : Priv) : Sim s s := ⟨.refl s, rfl, rfl, rfl, rfl⟩

theorem Sim.trans {r : Priv} (h : Sim s t) (h' : Sim t r) : Sim s r where
  toSameTable := h.toSameTable.trans h'.toSameTable
  scdbMac := h'.scdbMac.trans h.scdbMac
  scdbIp := h'.scdbIp.trans h.scdbIp
  brMac := h'.brMac.trans h.brMac
  brIp := h'.brIp.trans h.brIp

theorem Sim.symm (h : Sim s t) : Sim t s where
  links := h.links.symm
  live := h.live.symm
  scdbEntry := h.scdbEntry.symm
  networkAddr p := (h.networkAddr p).symm
  macAddr p := (h.macAddr p).symm
  ageingTimer p := (h.ageingTimer p).symm
  scdbMac := h.scdbMac.symm
  scdbIp := h.scdbIp.symm
  brMac := h.brMac.symm
  brIp := h.brIp.symm

theorem lookup_congr (hlinks : t.links = s.links) (hlive : t.live = s.live)
    (haddr : ∀ p, (t.entry p).networkAddr = (s.entry p).networkAddr) :
    t.lookup a = s.lookup a := by
  have hscan : ∀ (fuel : ℕ) (q : Option ℕ), scan t a fuel q = scan s a fuel q := by
    intro fuel
    induction fuel with
    | zero => exact fun _ => rfl
    | succ fuel ih =>
      intro q
      cases q with
      | none => rfl
      | some p => rw [scan, scan, haddr, hlinks, ih]
  rw [Priv.lookup, Priv.lookup, hlive, hlinks, hscan]

theorem lookup_same_table (h : SameTable s t) : t.lookup a = s.lookup a :=
  lookup_congr h.links h.live h.networkAddr

theorem Sim.setEntry (h : Sim s t) (p : ℕ) {e e' : Entry} (haddr : e'.networkAddr = e.networkAddr)
    (hmac : e'.macAddr = e.macAddr) (htimer : e'.ageingTimer = e.ageingTimer) :
    Sim (s.setEntry p e) (t.setEntry p e') := by
  refine ⟨⟨h.links, h.live, h.scdbEntry, ?_, ?_, ?_⟩, h.scdbMac, h.scdbIp, h.brMac, h.brIp⟩
  all_goals
    intro q
    simp only [setEntry_entry]
    by_cases hq : q = p
    · rw [hq, Function.update_self, Function.update_self]
      assumption
    · rw [Function.update_of_ne hq, Function.update_of_ne hq]
      first | exact h.networkAddr q | exact h.macAddr q | exact h.ageingTimer q

theorem Sim.refresh (h : Sim s t) (now p : ℕ) : Sim (refresh now s p) (refresh now t p) :=
  h.setEntry p (h.networkAddr p) (h.macAddr p) rfl

theorem Sim.insert (h : Sim s t) (now : ℕ) (alloc : Option ℕ) (mac : MacAddr) (a : NetworkAddr) :
    Sim (nat25DbNetworkInsert now alloc s mac a) (nat25DbNetworkInsert now alloc t mac a) := by
  have hmalloc : rtwMalloc t alloc = rtwMalloc s alloc := by rw [rtwMalloc, rtwMalloc, h.live]
  simp only [nat25DbNetworkInsert, lookup_same_table h.toSameTable, hmalloc]
  split
  · exact h.setEntry _ (h.networkAddr _) rfl rfl
  · split
    · exact h
    · next p _ =>
      have hset := h.setEntry p (e := ⟨1, mac, jiffies now, a⟩) rfl rfl rfl
      refine ⟨⟨?_, ?_, hset.scdbEntry, hset.networkAddr, hset.macAddr, hset.ageingTimer⟩,
        h.scdbMac, h.scdbIp, h.brMac, h.brIp⟩
      · simp only [newEntry, h.links]
      · simp only [newEntry, h.live]

theorem lookupAndReplace_sim (now : ℕ) (h : SameTable s t) (skb : Skb) :
    (nat25DbNetworkLookupAndReplace c now t skb a).1 =
      (nat25DbNetworkLookupAndReplace c now s skb a).1 ∧
    (nat25DbNetworkLookupAndReplace c now t skb a).2.1 =
      (nat25DbNetworkLookupAndReplace c now s skb a).2.1 := by
  have hexp : ∀ p, nat25HasExpired c now (t.entry p) = nat25HasExpired c now (s.entry p) := by
    intro p
    rw [nat25HasExpired, nat25HasExpired, h.ageingTimer]
  simp only [nat25DbNetworkLookupAndReplace, lookup_same_table h, hexp, h.macAddr]
  split
  · exact ⟨rfl, rfl⟩
  · split_ifs
    · exact ⟨rfl, rfl⟩
    · exact ⟨rfl, rfl⟩

theorem handle_insert_sim (now : ℕ) (h : Sim s t) (alloc : Option ℕ) (skb : Skb) :
    (nat25DbHandle c now alloc t skb .insert).ret = (nat25DbHandle c now alloc s skb .insert).ret ∧
    Sim (nat25DbHandle c now alloc s skb .insert).priv
      (nat25DbHandle c now alloc t skb .insert).priv := by
  constructor
  · simp only [nat25DbHandle, handleIp, handleArp, handleIpv6]
    split_ifs <;> rfl
  · simp only [insert_priv]
    split
    · exact h
    · exact h.insert now alloc _ _

theorem handle_check_sim (now : ℕ) (alloc : Option ℕ) (s t : Priv) (skb : Skb) :
    (nat25DbHandle c now alloc t skb .check).ret = (nat25DbHandle c now alloc s skb .check).ret := by
  simp only [nat25DbHandle, handleIp, handleArp, handleIpv6]
  split_ifs <;> rfl

theorem cacheClient_sim (now : ℕ) (h : Sim s t) (skb : Skb) :
    (cacheClient now t skb).1 = (cacheClient now s skb).1 ∧
      Sim (cacheClient now s skb).2 (cacheClient now t skb).2 := by
  simp only [cacheClient, h.scdbMac, h.scdbEntry, lookup_same_table h.toSameTable]
  split_ifs
  · split
    · refine ⟨rfl, ⟨⟨h.links, h.live, rfl, h.networkAddr, h.macAddr, h.ageingTimer⟩,
        rfl, h.scdbIp, h.brMac, h.brIp⟩⟩
    · refine ⟨rfl, Sim.refresh ?_ now _⟩
      exact ⟨⟨h.links, h.live, rfl, h.networkAddr, h.macAddr, h.ageingTimer⟩, rfl, rfl, h.brMac,
        h.brIp⟩
  · split
    · exact ⟨rfl, h.refresh now _⟩
    · exact ⟨rfl, ⟨⟨h.links, h.live, rfl, h.networkAddr, h.macAddr, h.ageingTimer⟩, rfl, rfl,
        h.brMac, h.brIp⟩⟩

theorem beforeInsert_sim (now : ℕ) (h : Sim s t) (frame : Skb) :
    (beforeInsert now t frame).1 = (beforeInsert now s frame).1 ∧
      Sim (beforeInsert now s frame).2 (beforeInsert now t frame).2 := by
  have hip : Sim { s with brIp := ipSaddr frame } { t with brIp := ipSaddr frame } :=
    ⟨⟨h.links, h.live, h.scdbEntry, h.networkAddr, h.macAddr, h.ageingTimer⟩, h.scdbMac,
      h.scdbIp, h.brMac, rfl⟩
  by_cases hmac : frame.mac 6 = s.brMac ∧ Skb.protocol frame = ethPIp
  · have hmac' : frame.mac 6 = t.brMac ∧ Skb.protocol frame = ethPIp := by rwa [h.brMac]
    simp only [beforeInsert, if_pos hmac, if_pos hmac', if_pos hmac.2]
    exact cacheClient_sim now hip frame
  · have hmac' : ¬ (frame.mac 6 = t.brMac ∧ Skb.protocol frame = ethPIp) := by rwa [h.brMac]
    simp only [beforeInsert, if_neg hmac, if_neg hmac']
    split_ifs
    · exact cacheClient_sim now h frame
    · exact ⟨rfl, h⟩

theorem rtwBrClientTx_sim (now : ℕ) (h : Sim s t) (env : TxEnv) (skb : Skb) :
    Sim (rtwBrClientTx c brPort now env s skb).priv (rtwBrClientTx c brPort now env t skb).priv := by
  have hcached : cachedEntry brPort t skb = cachedEntry brPort s skb := by
    simp only [cachedEntry, h.brMac, h.scdbMac, h.scdbEntry]
  simp only [rtwBrClientTx, hcached]
  split
  · exact h.refresh now _
  · obtain ⟨hdo, hsim⟩ := beforeInsert_sim now h (inner skb)
    simp only [hdo]
    split_ifs
    · obtain ⟨hret, hins⟩ := handle_insert_sim (c := c) now hsim env.alloc (inner skb)
      have hcheck := handle_check_sim (c := c) now env.alloc
        (beforeInsert now s (inner skb)).2 (beforeInsert now t (inner skb)).2 (inner skb)
      simp only [insertFrame, hcheck]
      split_ifs
      · exact hsim
      · exact hsim
      · simp only [hret]
        split_ifs
        · exact hins
        · exact hins
    · exact hsim

theorem lookupAndReplace_sim_self (now : ℕ) (s : Priv) (skb : Skb) :
    Sim s (nat25DbNetworkLookupAndReplace c now s skb a).2.2 := by
  simp only [nat25DbNetworkLookupAndReplace]
  split
  · exact .refl s
  · split_ifs
    · exact .refl s
    · exact ⟨setEntry_same s _ _, rfl, rfl, rfl, rfl⟩

theorem reinitBr_of_known (h : s.brMac ≠ Vector.replicate 6 0) : reinitBr c s = s := if_neg h

theorem lookup_sim_self (now : ℕ) (hbr : s.brMac ≠ Vector.replicate 6 0) (skb : Skb) :
    Sim s (nat25DbHandle c now none s skb .lookup).priv := by
  simp only [nat25DbHandle, handleIp, handleArp, handleIpv6]
  split_ifs
  · exact .refl s
  · exact lookupAndReplace_sim_self now s skb
  · exact lookupAndReplace_sim_self now s skb
  · have hsim := lookupAndReplace_sim_self (c := c)
      (a := nat25GenerateIpv4NetworkAddr (ipDaddr skb)) now s skb
    rw [← hsim.brMac] at hbr
    rw [reinitBr_of_known hbr]
    exact hsim
  · exact .refl s
  · exact lookupAndReplace_sim_self now s skb
  · exact .refl s
  · exact lookupAndReplace_sim_self now s skb
  · exact .refl s

theorem lookup_skb_sim (now : ℕ) (h : Sim s t) (hbr : s.brMac ≠ Vector.replicate 6 0) (skb : Skb) :
    (nat25DbHandle c now none t skb .lookup).skb = (nat25DbHandle c now none s skb .lookup).skb := by
  have hbr' : t.brMac ≠ Vector.replicate 6 0 := by rwa [h.brMac]
  have hself : ∀ (r : Priv) (a : NetworkAddr), r.brMac ≠ Vector.replicate 6 0 →
      (reinitBr c (nat25DbNetworkLookupAndReplace c now r skb a).2.2).brMac = r.brMac := by
    intro r a hr
    have hsim := lookupAndReplace_sim_self (c := c) (a := a) now r skb
    rw [reinitBr_of_known (by rwa [hsim.brMac]), hsim.brMac]
  have hfst := fun a => (lookupAndReplace_sim (c := c) (a := a) now h.toSameTable skb).1
  have hsnd := fun a => (lookupAndReplace_sim (c := c) (a := a) now h.toSameTable skb).2
  simp only [nat25DbHandle, handleIp, handleArp, handleIpv6, hfst, hsnd, hself _ _ hbr,
    hself _ _ hbr', h.brMac]
  split_ifs <;> rfl

/-! ## What is cached -/

def CacheOk (s : Priv) : Prop :=
  s.scdbIp ≠ Vector.replicate 4 0 →
    ∃ p ∈ s.live, (s.entry p).networkAddr = nat25GenerateIpv4NetworkAddr s.scdbIp ∧
      (s.entry p).macAddr = s.scdbMac

/-- A client that is about to be cached is not in the table with another MAC address. -/
def SameClient (s : Priv) (frame : Skb) : Prop :=
  s.scdbMac ≠ frame.mac 6 →
    ∀ p ∈ s.lookup (nat25GenerateIpv4NetworkAddr (ipSaddr frame)), (s.entry p).macAddr = frame.mac 6

instance (s : Priv) (frame : Skb) : Decidable (SameClient s frame) :=
  inferInstanceAs (Decidable (_ → ∀ p ∈ _, _))

variable {b : Hash → List ℕ}

theorem CacheOk.same (h : CacheOk s) (hst : Sim s t) : CacheOk t := by
  intro hip
  rw [hst.scdbIp] at hip
  obtain ⟨p, hp, haddr, hmac⟩ := h hip
  refine ⟨p, hst.live.symm ▸ hp, ?_, ?_⟩
  · rw [hst.networkAddr, hst.scdbIp, haddr]
  · rw [hst.macAddr, hst.scdbMac, hmac]

theorem refresh_macAddr (now p q : ℕ) : ((refresh now s p).entry q).macAddr = (s.entry q).macAddr := by
  rw [refresh, setEntry_entry]
  by_cases hq : q = p
  · rw [hq, Function.update_self]
  · rw [Function.update_of_ne hq]

theorem refresh_networkAddr (now p q : ℕ) :
    ((refresh now s p).entry q).networkAddr = (s.entry q).networkAddr :=
  setEntry_networkAddr (e := { s.entry p with ageingTimer := jiffies now }) rfl q

theorem CacheOk.refresh (h : CacheOk s) (now p : ℕ) : CacheOk (refresh now s p) := by
  intro hip
  obtain ⟨q, hq, haddr, hmac⟩ := h hip
  exact ⟨q, hq, (refresh_networkAddr now p q).trans haddr, (refresh_macAddr now p q).trans hmac⟩

theorem sound_refresh (h : Sound s b) (now p : ℕ) : Sound (refresh now s p) b := h.setEntry rfl

/-- What is cached before the insert, and what the insert will find. -/
structure Cached (s : Priv) (frame : Skb) (r : Bool × Priv) : Prop where
  sound : ∃ b, Sound r.2 b
  cacheOk : CacheOk r.2
  brMac : r.2.brMac = s.brMac
  blank : r.1 = true → r.2.scdbIp = Vector.replicate 4 0 ∨
    r.2.lookup (nat25GenerateIpv4NetworkAddr (ipSaddr frame)) = none

theorem cacheClient_cached (now : ℕ) (hb : Sound s b) (h : CacheOk s) {frame : Skb}
    (hclient : SameClient s frame) : Cached s frame (cacheClient now s frame) := by
  simp only [cacheClient]
  split_ifs with hmac
  · cases hl : s.lookup (nat25GenerateIpv4NetworkAddr (ipSaddr frame)) with
    | none =>
      refine ⟨⟨b, ⟨hb.chained, hb.houses, hb.nodup, hb.unique, nofun⟩⟩, h, rfl, ?_⟩
      intro _
      refine .inr (Eq.trans (lookup_congr (s := s) ?_ ?_ ?_) hl)
      · rfl
      · rfl
      · exact fun _ => rfl
    | some p =>
      obtain ⟨hp, haddr⟩ := hb.lookup_eq_some.mp hl
      refine ⟨⟨b, sound_refresh ?_ now p⟩, CacheOk.refresh ?_ now p, rfl, nofun⟩
      · refine ⟨hb.chained, hb.houses, hb.nodup, hb.unique, ?_⟩
        rintro q hq
        obtain rfl : p = q := Option.some.inj hq
        exact hp
      · exact fun _ => ⟨p, hp, haddr, hclient hmac p hl⟩
  · cases he : s.scdbEntry with
    | some p => exact ⟨⟨b, sound_refresh hb now p⟩, h.refresh now p, rfl, nofun⟩
    | none =>
      refine ⟨⟨b, ⟨hb.chained, hb.houses, hb.nodup, hb.unique, nofun⟩⟩, ?_, rfl,
        fun _ => .inl rfl⟩
      exact fun hip => absurd rfl hip

theorem beforeInsert_cached (now : ℕ) (hb : Sound s b) (h : CacheOk s) {frame : Skb}
    (hip : Skb.protocol frame = ethPIp) (hclient : SameClient s frame) :
    Cached s frame (beforeInsert now s frame) := by
  simp only [beforeInsert, hip, and_true, if_true]
  split_ifs
  · have hb' : Sound { s with brIp := ipSaddr frame } b :=
      ⟨hb.chained, hb.houses, hb.nodup, hb.unique, hb.cached⟩
    have hclient' : SameClient { s with brIp := ipSaddr frame } frame := by
      intro hmac p hp
      refine hclient hmac p (Eq.trans (lookup_congr ?_ ?_ ?_) hp)
      · rfl
      · rfl
      · exact fun _ => rfl
    obtain ⟨hs, hc, hbr, hblank⟩ := cacheClient_cached now hb' h hclient'
    exact ⟨hs, hc, hbr, hblank⟩
  · exact cacheClient_cached now hb h hclient

theorem insert_frame (s : Priv) (now : ℕ) (alloc : Option ℕ) (mac : MacAddr) (a : NetworkAddr) :
    (nat25DbNetworkInsert now alloc s mac a).scdbMac = s.scdbMac ∧
    (nat25DbNetworkInsert now alloc s mac a).scdbIp = s.scdbIp ∧
    (nat25DbNetworkInsert now alloc s mac a).brMac = s.brMac := by
  simp only [nat25DbNetworkInsert]
  split
  · exact ⟨rfl, rfl, rfl⟩
  · split
    · exact ⟨rfl, rfl, rfl⟩
    · exact ⟨rfl, rfl, rfl⟩

theorem CacheOk.insert (h : CacheOk s) (now : ℕ) (alloc : Option ℕ) (mac : MacAddr)
    (hblank : s.scdbIp = Vector.replicate 4 0 ∨ s.lookup a = none) :
    CacheOk (nat25DbNetworkInsert now alloc s mac a) := by
  obtain ⟨hscdb, hip, -⟩ := insert_frame s now alloc mac a
  intro hne
  rw [hip] at hne
  have hnone := hblank.resolve_left hne
  obtain ⟨p, hp, haddr, hmac⟩ := h hne
  rw [hscdb, hip]
  simp only [nat25DbNetworkInsert, hnone]
  split
  · exact ⟨p, hp, haddr, hmac⟩
  · next q hq =>
    have hfree : q ∉ s.live := by simpa using (Option.filter_eq_some_iff.mp hq).2
    have hpq : p ≠ q := fun h => hfree (h ▸ hp)
    refine ⟨p, List.mem_cons_of_mem q hp, ?_, ?_⟩
    · rw [newEntry_entry, Function.update_of_ne hpq, haddr]
    · rw [newEntry_entry, Function.update_of_ne hpq, hmac]

theorem tx_cached (now : ℕ) (env : TxEnv) (hb : Sound s b) (h : CacheOk s) {skb : Skb}
    (hip : Skb.protocol (inner skb) = ethPIp) (hclient : SameClient s (inner skb)) :
    (∃ b', Sound (rtwBrClientTx c brPort now env s skb).priv b') ∧
    CacheOk (rtwBrClientTx c brPort now env s skb).priv ∧
    (rtwBrClientTx c brPort now env s skb).priv.brMac = s.brMac := by
  simp only [rtwBrClientTx]
  split
  · exact ⟨⟨b, sound_refresh hb now _⟩, h.refresh now _, rfl⟩
  · obtain ⟨⟨b', hs⟩, hc, hbr, hblank⟩ := beforeInsert_cached now hb h hip hclient
    generalize beforeInsert now s (inner skb) = r at hs hc hbr hblank
    split_ifs with hdo
    · -- the frame is inserted under its source address, or not at all
      have hinsert : (∃ b', Sound (nat25DbHandle c now env.alloc r.2 (inner skb) .insert).priv b') ∧
          CacheOk (nat25DbHandle c now env.alloc r.2 (inner skb) .insert).priv ∧
          (nat25DbHandle c now env.alloc r.2 (inner skb) .insert).priv.brMac = s.brMac := by
        rw [insert_priv, insertAddr, if_pos hip]
        split_ifs
        · exact ⟨⟨b', hs⟩, hc, hbr⟩
        · refine ⟨hs.insert now _ _ _, hc.insert now _ _ (hblank hdo), ?_⟩
          rw [(insert_frame _ _ _ _ _).2.2, hbr]
      simp only [insertFrame]
      split_ifs
      · exact ⟨⟨b', hs⟩, hc, hbr⟩
      · exact ⟨⟨b', hs⟩, hc, hbr⟩
      · simp only
        split_ifs
        · exact hinsert
        · exact hinsert
    · exact ⟨⟨b', hs⟩, hc, hbr⟩

theorem sent_cached (ext : BrExtInfo) (now : ℕ) (env : TxEnv) {p : ℕ} {skb : Skb}
    (hcached : cachedEntry brPort s skb = none) (htag : ¬ isVlanTag skb)
    (hip : Skb.protocol skb = ethPIp) (hbr : skb.mac 6 ≠ s.brMac) (hmac : s.scdbMac ≠ skb.mac 6)
    (hl : s.lookup (nat25GenerateIpv4NetworkAddr (ipSaddr skb)) = some p) :
    step c brPort ext s ⟨now, .sent skb env⟩ =
      refresh now
        { s with scdbEntry := some p, scdbMac := skb.mac 6, scdbIp := ipSaddr skb } p := by
  simp only [step, rtwBrClientTx, hcached, inner, if_neg htag, beforeInsert, hbr, false_and,
    if_false, hip, if_true, cacheClient, if_pos hmac, hl, Bool.false_eq_true]

/-! ## With and without the shortcut -/

/-- The AP's frame is for an address, and the table's entry of that address has not expired. -/
def Asked (c : Config) (now : ℕ) (s : Priv) (frame : Skb) : Prop :=
  ∀ p, s.lookup (nat25GenerateIpv4NetworkAddr (ipDaddr frame)) = some p →
    nat25HasExpired c now (s.entry p) = false

def Addressed (frame : Skb) : Prop :=
  ipDaddr frame ≠ Vector.replicate 4 0 ∧ ¬ malformedIp frame

instance (frame : Skb) : Decidable (Addressed frame) := inferInstanceAs (Decidable (_ ∧ _))

theorem outer_mac (skb old : Skb) : (outer skb old).mac 0 = skb.mac 0 := by
  simp only [outer]
  split_ifs
  · ext i hi
    have hlt : i < 12 := by omega
    simp [Skb.mac, Skb.retag, hlt]
  · rfl

theorem received_same (hb : Sound s b) (h : CacheOk s) (hst : Sim s t)
    (hbr : s.brMac ≠ Vector.replicate 6 0) (now : ℕ) {skb : Skb} (huni : isUnicast skb)
    (hip : Skb.protocol (inner skb) = ethPIp) (haddr : Addressed (inner skb))
    (hasked : Asked c now s (inner skb)) :
    (nat25HandleFrame c {} now s skb).skb.mac 0 =
      (nat25HandleFrame c { nat25scDisable := true } now t skb).skb.mac 0 := by
  simp only [nat25HandleFrame, if_pos huni, lookupFrame, hip, true_and, if_true,
    Bool.true_eq_false, if_false, false_and, outer_mac]
  split_ifs with hcached
  · obtain ⟨p, hp, hpa, hmac⟩ := h (hcached ▸ haddr.1)
    rw [hcached] at hpa
    have hl := hb.lookup_eq_some.mpr ⟨hp, hpa⟩
    rw [lookup_skb_sim now hst hbr]
    simp only [nat25DbHandle, if_pos hip, if_neg haddr.2, handleIp, nat25DbNetworkLookupAndReplace,
      hl, hasked p hl, Bool.false_eq_true, if_false, if_true, putMac_self, hmac]
  · rw [lookup_skb_sim now hst hbr]

theorem received_sim (hbr : s.brMac ≠ Vector.replicate 6 0) (ext : BrExtInfo) (now : ℕ)
    (skb : Skb) : Sim s (nat25HandleFrame c ext now s skb).priv := by
  have hlookup : Sim s (lookupFrame c ext now s (inner skb)).priv := by
    simp only [lookupFrame]
    split_ifs
    · exact .refl s
    · exact lookup_sim_self now hbr _
    · exact lookup_sim_self now hbr _
    · exact .refl s
  simp only [nat25HandleFrame]
  split_ifs
  · exact hlookup
  · exact hlookup
  · exact .refl s

/-- A client's frame is IPv4, and so is a unicast frame of the AP. -/
def Ipv4 (e : Event) : Prop :=
  match e.frame with
  | .sent skb _ => Skb.protocol (inner skb) = ethPIp
  | .received skb => isUnicast skb ∧ Skb.protocol (inner skb) = ethPIp

instance : (e : Event) → Decidable (Ipv4 e)
  | ⟨_, .sent skb _⟩ => inferInstanceAs (Decidable (Skb.protocol (inner skb) = ethPIp))
  | ⟨_, .received _⟩ => inferInstanceAs (Decidable (_ ∧ _))

def Consistent (s : Priv) (e : Event) : Prop :=
  match e.frame with
  | .sent skb _ => SameClient s (inner skb)
  | .received skb => Addressed (inner skb)

instance (s : Priv) : (e : Event) → Decidable (Consistent s e)
  | ⟨_, .sent skb _⟩ => inferInstanceAs (Decidable (SameClient s (inner skb)))
  | ⟨_, .received skb⟩ => inferInstanceAs (Decidable (Addressed (inner skb)))

def Young (c : Config) (s : Priv) (e : Event) : Prop :=
  match e.frame with
  | .sent _ _ => True
  | .received skb => Asked c e.now s (inner skb)

def destinations (c : Config) (brPort : Bool) (ext : BrExtInfo) : Priv → List Event → List MacAddr
  | _, [] => []
  | s, e :: es =>
    match e.frame with
    | .sent _ _ => destinations c brPort ext (step c brPort ext s e) es
    | .received skb =>
      (nat25HandleFrame c ext e.now s skb).skb.mac 0 ::
        destinations c brPort ext (step c brPort ext s e) es

/-- Two bridges that differ in use counts, and a cache that agrees with the table. -/
structure Paired (s t : Priv) : Prop where
  sound : ∃ b, Sound s b
  cacheOk : CacheOk s
  sim : Sim s t
  brMac : s.brMac ≠ Vector.replicate 6 0

theorem Paired.step (h : Paired s t) {e : Event} (hip : Ipv4 e) (hcons : Consistent s e) :
    Paired (step c brPort {} s e) (step c brPort { nat25scDisable := true } t e) := by
  obtain ⟨now, frame⟩ := e
  obtain ⟨b, hb⟩ := h.sound
  cases frame with
  | sent skb env =>
    obtain ⟨hs, hc, hbr⟩ := tx_cached now env hb h.cacheOk hip hcons
    refine ⟨hs, hc, rtwBrClientTx_sim now h.sim env skb, ?_⟩
    simp only [Nat25Shortcut.step, hbr]
    exact h.brMac
  | received skb =>
    have hbr' : t.brMac ≠ Vector.replicate 6 0 := by
      rw [h.sim.brMac]
      exact h.brMac
    have hs := received_sim (c := c) h.brMac {} now skb
    have ht := received_sim (c := c) hbr' { nat25scDisable := true } now skb
    refine ⟨⟨b, hb.same hs.toSameTable⟩, h.cacheOk.same hs, (hs.symm.trans h.sim).trans ht, ?_⟩
    simp only [Nat25Shortcut.step, hs.brMac]
    exact h.brMac

theorem destinations_same (h : Paired s t) {es : List Event} (hip : ∀ e ∈ es, Ipv4 e)
    (hes : Along (step c brPort {}) (fun s e => Consistent s e ∧ Young c s e) s es) :
    destinations c brPort {} s es = destinations c brPort { nat25scDisable := true } t es := by
  induction es generalizing s t with
  | nil => rfl
  | cons e es ih =>
    obtain ⟨⟨hcons, hyoung⟩, hes⟩ := hes
    have he := hip e List.mem_cons_self
    have hrest := ih (h.step he hcons) (fun e' he' => hip e' (List.mem_cons_of_mem e he')) hes
    obtain ⟨now, frame⟩ := e
    cases frame with
    | sent skb env => exact hrest
    | received skb =>
      obtain ⟨b, hb⟩ := h.sound
      have hdest := received_same (c := c) hb h.cacheOk h.sim h.brMac now he.1 he.2 hcons hyoung
      simp only [destinations, hdest, hrest]

/-! ## Frames within the ageing time -/

/-- The entries were inserted or refreshed between `start` and `now`. -/
def Recent (start now : ℕ) (s : Priv) : Prop :=
  ∀ p ∈ s.live, ∃ u, start ≤ u ∧ u ≤ now ∧ (s.entry p).ageingTimer = jiffies u

variable {start now : ℕ}

theorem Recent.mono (h : Recent start now s) {later : ℕ} (hle : now ≤ later) :
    Recent start later s := by
  intro p hp
  obtain ⟨u, hu, hnow, htimer⟩ := h p hp
  exact ⟨u, hu, hnow.trans hle, htimer⟩

theorem Recent.same (h : Recent start now s) (hst : SameTable s t) : Recent start now t := by
  intro p hp
  rw [hst.live] at hp
  rw [hst.ageingTimer]
  exact h p hp

theorem Recent.setEntry (h : Recent start now s) (hle : start ≤ now) (p : ℕ) {e : Entry}
    (he : e.ageingTimer = jiffies now) : Recent start now (s.setEntry p e) := by
  intro q hq
  rw [setEntry_entry]
  by_cases hqp : q = p
  · rw [hqp, Function.update_self]
    exact ⟨now, hle, Nat.le_refl _, he⟩
  · rw [Function.update_of_ne hqp]
    exact h q hq

theorem Recent.refresh (h : Recent start now s) (hle : start ≤ now) (p : ℕ) :
    Recent start now (refresh now s p) := h.setEntry hle p rfl

theorem Recent.insert (h : Recent start now s) (hle : start ≤ now) (alloc : Option ℕ)
    (mac : MacAddr) (a : NetworkAddr) :
    Recent start now (nat25DbNetworkInsert now alloc s mac a) := by
  simp only [nat25DbNetworkInsert]
  split
  · exact h.setEntry hle _ rfl
  · split
    · exact h
    · next p _ =>
      intro q hq
      rw [newEntry_entry]
      by_cases hqp : q = p
      · rw [hqp, Function.update_self]
        exact ⟨now, hle, Nat.le_refl _, rfl⟩
      · rw [Function.update_of_ne hqp]
        exact h q ((List.mem_cons.mp hq).resolve_left hqp)

theorem Recent.beforeInsert (h : Recent start now s) (hle : start ≤ now) (frame : Skb) :
    Recent start now (beforeInsert now s frame).2 := by
  have hcache : ∀ r : Priv, Recent start now r → Recent start now (cacheClient now r frame).2 := by
    intro r hr
    simp only [cacheClient]
    split_ifs
    · split
      · exact hr
      · exact Recent.refresh (s := { r with scdbEntry := _, scdbMac := _, scdbIp := _ }) hr hle _
    · split
      · exact hr.refresh hle _
      · exact hr
  simp only [Nat25Shortcut.beforeInsert]
  split_ifs
  · exact hcache _ h
  · exact hcache s h
  · exact h
  · exact h

theorem Recent.sent (h : Recent start now s) (hle : start ≤ now) (env : TxEnv) (skb : Skb) :
    Recent start now (rtwBrClientTx c brPort now env s skb).priv := by
  simp only [rtwBrClientTx]
  split
  · exact h.refresh hle _
  · have hr := h.beforeInsert hle (inner skb)
    generalize Nat25Shortcut.beforeInsert now s (inner skb) = r at hr
    have hinsert :
        Recent start now (nat25DbHandle c now env.alloc r.2 (inner skb) .insert).priv := by
      rw [insert_priv]
      split
      · exact hr
      · exact hr.insert hle _ _ _
    split_ifs
    · simp only [insertFrame]
      split_ifs
      · exact hr
      · exact hr
      · simp only
        split_ifs
        · exact hinsert
        · exact hinsert
    · exact hr

theorem Recent.young (h : Recent start now s) (hclose : now - start < nat25AgeingTime * c.hz)
    (hb : ∃ b, Sound s b) (frame : Skb) : Asked c now s frame := by
  obtain ⟨b, hb⟩ := hb
  intro p hp
  obtain ⟨u, hu, hnow, htimer⟩ := h p (hb.lookup_eq_some.mp hp).1
  exact not_hasExpired c _ htimer hnow (by omega)

theorem young_along (h : Paired s t) (hrec : Recent start now s) {es : List Event}
    (hip : ∀ e ∈ es, Ipv4 e) (hnow : ∀ e ∈ es, now ≤ e.now) (hle : start ≤ now)
    (hsorted : (es.map Event.now).Pairwise (· ≤ ·))
    (hclose : ∀ e ∈ es, e.now - start < nat25AgeingTime * c.hz)
    (hes : Along (step c brPort {}) Consistent s es) :
    Along (step c brPort {}) (fun s e => Consistent s e ∧ Young c s e) s es := by
  induction es generalizing s t now with
  | nil => trivial
  | cons e es ih =>
    rw [List.map_cons, List.pairwise_cons] at hsorted
    obtain ⟨hcons, hes⟩ := hes
    have he := hip e List.mem_cons_self
    have hrec' := hrec.mono (hnow e List.mem_cons_self)
    have hle' := hle.trans (hnow e List.mem_cons_self)
    have hyoung : Young c s e := by
      have hall := hrec'.young (hclose e List.mem_cons_self) h.sound
      simp only [Young]
      split
      · trivial
      · exact hall _
    have hstep : Recent start e.now (step c brPort {} s e) := by
      simp only [step]
      split
      · exact hrec'.sent hle' _ _
      · exact hrec'.same (received_sim h.brMac {} e.now _).toSameTable
    refine ⟨⟨hcons, hyoung⟩, ih (h.step he hcons) hstep ?_ ?_ hle' hsorted.2 ?_ hes⟩
    · exact fun e' he' => hip e' (List.mem_cons_of_mem e he')
    · exact fun e' he' => hsorted.1 _ (List.mem_map_of_mem he')
    · exact fun e' he' => hclose e' (List.mem_cons_of_mem e he')

/-- The shortcut gives every frame of the AP the destination that the table gives, in the
runs in which no client is cached that the table holds with another MAC address; between
frames that are further apart than the ageing time the entry must not have expired. -/
theorem shortcut_transparent (c : Config) (brPort : Bool) (brMac : MacAddr) (brIp : IpAddr)
    (hbr : brMac ≠ Vector.replicate 6 0) (es : List Event) (hip : ∀ e ∈ es, Ipv4 e) :
    (Along (step c brPort {}) (fun s e => Consistent s e ∧ Young c s e) (initPriv brMac brIp) es →
      destinations c brPort {} (initPriv brMac brIp) es =
        destinations c brPort { nat25scDisable := true } (initPriv brMac brIp) es) ∧
    ((es.map Event.now).Pairwise (· ≤ ·) →
      (∀ e ∈ es, ∀ e' ∈ es, e'.now - e.now < nat25AgeingTime * c.hz) →
      Along (step c brPort {}) Consistent (initPriv brMac brIp) es →
      destinations c brPort {} (initPriv brMac brIp) es =
        destinations c brPort { nat25scDisable := true } (initPriv brMac brIp) es) := by
  have hinit : Paired (initPriv brMac brIp) (initPriv brMac brIp) :=
    ⟨⟨_, initPriv_sound brMac brIp⟩, fun h => absurd rfl h, .refl _, hbr⟩
  refine ⟨destinations_same hinit hip, ?_⟩
  intro hsorted hclose hes
  cases es with
  | nil => rfl
  | cons e es =>
    refine destinations_same hinit hip ?_
    have hrec : Recent e.now e.now (initPriv brMac brIp) := nofun
    refine young_along hinit hrec hip ?_ (Nat.le_refl _) hsorted (hclose e List.mem_cons_self) hes
    intro e' he'
    rcases List.mem_cons.mp he' with rfl | he'
    · exact Nat.le_refl _
    · rw [List.map_cons, List.pairwise_cons] at hsorted
      exact hsorted.1 _ (List.mem_map_of_mem he')

/-! ## An address that moves -/

def clientB : MacAddr := macOf 0x02 0x00 0x00 0x00 0x00 0x0b

def fromClientB : Skb := ipFrame gateway clientB (hostAddr 2) (hostAddr 1)

def movedAddress : List Event :=
  [⟨0, .sent fromClient { alloc := some 0 }⟩, ⟨100, .sent fromClientB {}⟩,
    ⟨200, .received toClient⟩]

def oneClient : List Event :=
  [⟨0, .sent fromClient { alloc := some 0 }⟩, ⟨100, .sent fromClient {}⟩, ⟨200, .received toClient⟩]

theorem shortcut_transparent_client :
    destinations hundredHz true {} (initPriv bridge #v[10, 0, 0, 254]) oneClient = [clientA] := by
  have hsame := (shortcut_transparent hundredHz true bridge #v[10, 0, 0, 254] (by decide) oneClient
    (by decide)).2 (by decide) (by decide) (by decide)
  exact hsame.trans (by decide)

def firstSent : Priv :=
  step hundredHz true {} (initPriv bridge (hostAddr 254))
    ⟨0, .sent fromClient { alloc := some 0 }⟩

theorem second_cached (ext : BrExtInfo) :
    step hundredHz true ext firstSent ⟨100, .sent fromClientB {}⟩ =
      refresh 100
        { firstSent with scdbEntry := some 0, scdbMac := clientB, scdbIp := #v[10, 0, 0, 2] } 0 := by
  have hmac : fromClientB.mac 6 = clientB := by decide
  have hsaddr : ipSaddr fromClientB = #v[10, 0, 0, 2] := by decide
  have hl : firstSent.lookup (nat25GenerateIpv4NetworkAddr #v[10, 0, 0, 2]) = some 0 := by decide
  rw [sent_cached (p := 0) ext 100 {} (by decide) (by decide) (by decide) (by decide) (by decide)
    (by rw [hsaddr]; exact hl), hmac, hsaddr]

/-- The shortcut follows the second client, the table keeps the first. -/
theorem movedAddress_differs :
    (∀ e ∈ movedAddress, Ipv4 e) ∧ (movedAddress.map Event.now).Pairwise (· ≤ ·) ∧
    (∀ e ∈ movedAddress, ∀ e' ∈ movedAddress, e'.now - e.now < nat25AgeingTime * hundredHz.hz) ∧
    destinations hundredHz true {} (initPriv bridge #v[10, 0, 0, 254]) movedAddress = [clientB] ∧
    destinations hundredHz true { nat25scDisable := true } (initPriv bridge #v[10, 0, 0, 254])
      movedAddress = [clientA] := by
  have hfirst : ∀ ext, destinations hundredHz true ext (initPriv bridge #v[10, 0, 0, 254])
      movedAddress = [(nat25HandleFrame hundredHz ext 200
        (step hundredHz true ext firstSent ⟨100, .sent fromClientB {}⟩) toClient).skb.mac 0] :=
    fun _ => rfl
  rw [hfirst, hfirst, second_cached, second_cached]
  refine ⟨by decide, by decide, by decide, by decide, by decide⟩

end Rtl8189.Nat25Shortcut
