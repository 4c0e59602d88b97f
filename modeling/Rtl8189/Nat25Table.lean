import Rtl8189.Hlist
import Rtl8189.RecvFrame

/-!
# The NAT2.5 table

Network addresses of bridge clients with the clients' MAC addresses, in sixteen hash
chains of allocated entries. An entry that was not refreshed for `NAT25_AGEING_TIME`
is expired: lookups pass it over, and `nat25_db_expire` lowers its use count and frees
it at zero. Times are `jiffies`, of which the code sees the lower 64 bits.
-/
namespace Rtl8189.Nat25Table

open Hlist HashBuckets

/-- `NAT25_HASH_SIZE` -/
abbrev Hash := Fin 16

def nat25AgeingTime : ℕ := 300

abbrev NetworkAddr := Vector UInt8 17

abbrev IpAddr := Vector UInt8 4

/-- The links of an entry are kept apart. -/
structure Entry where
  useCount : BitVec 32 := 0
  macAddr : MacAddr := Vector.replicate 6 0
  ageingTimer : BitVec 64 := 0
  networkAddr : NetworkAddr := Vector.replicate 17 0

/-- The bridge part of an adapter, with the memory of the entries. -/
structure Priv where
  links : Links Hash ℕ := ⟨fun _ => none, fun _ => none, fun _ => none⟩
  entry : ℕ → Entry := fun _ => {}
  /-- The addresses of the entries that are allocated. -/
  live : List ℕ := []
  scdbMac : MacAddr := Vector.replicate 6 0
  scdbIp : IpAddr := Vector.replicate 4 0
  scdbEntry : Option ℕ := none
  brMac : MacAddr := Vector.replicate 6 0
  brIp : IpAddr := Vector.replicate 4 0

/-- What the kernel is configured with: `HZ`, the adapter's address, and the address of
the bridge device, if there is one. -/
structure Config where
  hz : ℕ
  hz_le : nat25AgeingTime * hz ≤ 2 ^ 63
  myHwaddr : MacAddr
  brDev : Option MacAddr := none

structure Skb where
  data : ℕ → UInt8
  len : ℕ

def Skb.mac (skb : Skb) (off : ℕ) : MacAddr := Vector.ofFn fun i => skb.data (off + i)

def Skb.ip (skb : Skb) (off : ℕ) : IpAddr := Vector.ofFn fun i => skb.data (off + i)

def Skb.putMac (skb : Skb) (off : ℕ) (mac : MacAddr) : Skb :=
  { skb with data := fun k =>
      if h : off ≤ k ∧ k < off + 6 then mac[k - off] else skb.data k }

/-- The state of the bridge code after one of its calls: what it did to the frame
and to the table. -/
structure Done where
  ret : ℤ
  skb : Skb
  priv : Priv

def jiffies (now : ℕ) : BitVec 64 := BitVec.ofNat 64 now

def timeBeforeEq (a b : BitVec 64) : Bool := 0 ≤ (b - a).toInt

def nat25Timeout (c : Config) (now : ℕ) : BitVec 64 :=
  jiffies now - BitVec.ofNat 64 (nat25AgeingTime * c.hz)

def nat25HasExpired (c : Config) (now : ℕ) (fdb : Entry) : Bool :=
  timeBeforeEq fdb.ageingTimer (nat25Timeout c now)

def nat25GenerateIpv4NetworkAddr (ip : IpAddr) : NetworkAddr :=
  Vector.ofFn fun i =>
    if (i : ℕ) = 0 then 1
    else if h : 7 ≤ (i : ℕ) ∧ (i : ℕ) < 11 then ip[(i : ℕ) - 7] else 0

def nat25GenerateIpv6NetworkAddr (ip : Vector UInt8 16) : NetworkAddr :=
  Vector.ofFn fun i => if h : (i : ℕ) = 0 then 2 else ip[(i : ℕ) - 1]

/-- The exclusive or of the bytes that the kind of address is told apart by. -/
def nat25NetworkHash (a : NetworkAddr) : Hash :=
  let bytes := a.toList
  let x :=
    if a[0] = 1 then (bytes.drop 7).take 4
    else if a[0] = 3 then (bytes.drop 1).take 10
    else if a[0] = 4 then (bytes.drop 1).take 3
    else if a[0] = 5 then bytes.take 9
    else if a[0] = 2 then bytes.drop 1
    else bytes
  Fin.ofNat 16 (x.foldl (· ^^^ ·) 0).toNat

def Priv.setEntry (s : Priv) (p : ℕ) (e : Entry) : Priv :=
  { s with entry := Function.update s.entry p e }

def newEntry (s : Priv) (p : ℕ) (e : Entry) : Priv :=
  { s.setEntry p e with
    live := p :: s.live
    links := s.links.link p (nat25NetworkHash e.networkAddr) }

def scan (s : Priv) (a : NetworkAddr) : ℕ → Option ℕ → Option ℕ
  | 0, _ => none
  | _, none => none
  | fuel + 1, some db =>
    if (s.entry db).networkAddr = a then some db else scan s a fuel (s.links.next db)

def Priv.lookup (s : Priv) (a : NetworkAddr) : Option ℕ :=
  scan s a s.live.length (s.links.head (nat25NetworkHash a))

def nat25DbNetworkLookupAndReplace (c : Config) (now : ℕ) (s : Priv) (skb : Skb)
    (a : NetworkAddr) : Bool × Skb × Priv :=
  match s.lookup a with
  | none => (false, skb, s)
  | some db =>
    let e := s.entry db
    if nat25HasExpired c now e then (true, skb, s)
    else (true, skb.putMac 0 e.macAddr, s.setEntry db { e with useCount := e.useCount + 1 })

/-- The allocator never gives out an address that is in use. -/
def rtwMalloc (s : Priv) (alloc : Option ℕ) : Option ℕ := alloc.filter (· ∉ s.live)

def nat25DbNetworkInsert (now : ℕ) (alloc : Option ℕ) (s : Priv) (mac : MacAddr)
    (a : NetworkAddr) : Priv :=
  match s.lookup a with
  | some db => s.setEntry db { s.entry db with macAddr := mac, ageingTimer := jiffies now }
  | none =>
    match rtwMalloc s alloc with
    | none => s
    | some db =>
      newEntry s db { useCount := 1, macAddr := mac, ageingTimer := jiffies now, networkAddr := a }

def freeEntry (s : Priv) (f : ℕ) : Priv :=
  let s :=
    if s.scdbEntry = some f then
      { s with
        scdbMac := Vector.replicate 6 0
        scdbIp := Vector.replicate 4 0
        scdbEntry := none }
    else s
  { s with links := s.links.unlink f, live := s.live.erase f }

def expireEntry (c : Config) (now : ℕ) (s : Priv) (f : ℕ) : Priv :=
  let e := s.entry f
  if nat25HasExpired c now e then
    let s := s.setEntry f { e with useCount := e.useCount - 1 }
    if e.useCount - 1 = 0 then freeEntry s f else s
  else s

def walk (visit : Priv → ℕ → Priv) : ℕ → Option ℕ → Priv → Priv
  | 0, _, s => s
  | _, none, s => s
  | fuel + 1, some f, s =>
    let g := s.links.next f
    walk visit fuel g (visit s f)

def walkAll (visit : Priv → ℕ → Priv) (s : Priv) : Priv :=
  (List.finRange 16).foldl (fun s i => walk visit s.live.length (s.links.head i) s) s

def nat25DbCleanup (s : Priv) : Priv := walkAll freeEntry s

def nat25DbExpire (c : Config) (now : ℕ) (s : Priv) : Priv := walkAll (expireEntry c now) s

/-! ## Sound tables -/

def Priv.home (s : Priv) (p : ℕ) : Option Hash :=
  if p ∈ s.live then some (nat25NetworkHash (s.entry p).networkAddr) else none

/-- The chains hold the allocated entries, each in the bucket of its hash, and there is
one for an address at most. -/
structure Sound (s : Priv) (b : Hash → List ℕ) : Prop where
  chained : Chained s.links b
  houses : Houses b s.home
  nodup : s.live.Nodup
  unique : ∀ p ∈ s.live, ∀ q ∈ s.live, (s.entry p).networkAddr = (s.entry q).networkAddr → p = q
  cached : ∀ p, s.scdbEntry = some p → p ∈ s.live

variable {s t : Priv} {b : Hash → List ℕ} {a : NetworkAddr} {p q : ℕ}

theorem home_eq_some {k : Hash} :
    s.home p = some k ↔ p ∈ s.live ∧ nat25NetworkHash (s.entry p).networkAddr = k := by
  rw [Priv.home]
  split_ifs with h
  · simp [h]
  · simp [h]

theorem home_eq_none : s.home p = none ↔ p ∉ s.live := by
  rw [Priv.home]
  split_ifs with h
  · simp [h]
  · simp [h]

theorem Sound.mem_bucket (h : Sound s b) {k : Hash} :
    p ∈ b k ↔ p ∈ s.live ∧ nat25NetworkHash (s.entry p).networkAddr = k := by
  rw [h.houses.mem_iff, home_eq_some]

theorem Sound.length_le (h : Sound s b) (k : Hash) : (b k).length ≤ s.live.length :=
  ((h.houses.nodup k).subperm fun _ hp => (h.mem_bucket.mp hp).1).length_le

theorem scan_chain {fuel : ℕ} {from' : Slot Hash ℕ} {ps : List ℕ} (h : Chain s.links from' ps)
    (hfuel : ps.length ≤ fuel) :
    scan s a fuel (s.links.get from') = ps.find? fun p => (s.entry p).networkAddr = a := by
  induction ps generalizing from' fuel with
  | nil =>
    rw [h]
    cases fuel with
    | zero => rfl
    | succ fuel => rfl
  | cons p ps ih =>
    obtain ⟨hget, -, hrest⟩ := h
    cases fuel with
    | zero => exact absurd hfuel (Nat.not_succ_le_zero _)
    | succ fuel =>
      rw [hget, scan, List.find?_cons]
      by_cases hp : (s.entry p).networkAddr = a
      · simp [hp]
      · rw [if_neg hp, decide_eq_false hp]
        exact ih hrest (Nat.le_of_succ_le_succ hfuel)

theorem Sound.lookup_eq_some (h : Sound s b) :
    s.lookup a = some p ↔ p ∈ s.live ∧ (s.entry p).networkAddr = a := by
  have hscan : s.lookup a = (b (nat25NetworkHash a)).find? fun p => (s.entry p).networkAddr = a :=
    scan_chain (h.chained _) (h.length_le _)
  rw [hscan]
  constructor
  · intro hfind
    have haddr := List.find?_some hfind
    exact ⟨(h.mem_bucket.mp (List.mem_of_find?_eq_some hfind)).1, by simpa using haddr⟩
  · rintro ⟨hp, rfl⟩
    have hmem : p ∈ b (nat25NetworkHash (s.entry p).networkAddr) := h.mem_bucket.mpr ⟨hp, rfl⟩
    obtain ⟨q, hq⟩ := Option.isSome_iff_exists.mp
      (List.find?_isSome (p := fun q => (s.entry q).networkAddr = (s.entry p).networkAddr)
        |>.mpr ⟨p, hmem, decide_eq_true rfl⟩)
    have haddr := List.find?_some hq
    have hqlive := (h.mem_bucket.mp (List.mem_of_find?_eq_some hq)).1
    rw [hq, h.unique q hqlive p hp (by simpa using haddr)]

theorem Sound.lookup_eq_none (h : Sound s b) :
    s.lookup a = none ↔ ∀ p ∈ s.live, (s.entry p).networkAddr ≠ a := by
  constructor
  · intro hnone p hp haddr
    rw [h.lookup_eq_some.mpr ⟨hp, haddr⟩] at hnone
    cases hnone
  · intro hall
    cases hl : s.lookup a with
    | none => rfl
    | some p =>
      obtain ⟨hp, haddr⟩ := h.lookup_eq_some.mp hl
      exact absurd haddr (hall p hp)

/-! ## What the operations keep -/

@[simp] theorem setEntry_entry (s : Priv) (p : ℕ) (e : Entry) :
    (s.setEntry p e).entry = Function.update s.entry p e := rfl

theorem setEntry_networkAddr {e : Entry} (he : e.networkAddr = (s.entry p).networkAddr) (q : ℕ) :
    ((s.setEntry p e).entry q).networkAddr = (s.entry q).networkAddr := by
  rw [setEntry_entry]
  by_cases hq : q = p
  · rw [hq, Function.update_self, he]
  · rw [Function.update_of_ne hq]

theorem Sound.congr (h : Sound s b) (hlinks : t.links = s.links) (hlive : t.live = s.live)
    (hcached : t.scdbEntry = s.scdbEntry)
    (haddr : ∀ p, (t.entry p).networkAddr = (s.entry p).networkAddr) : Sound t b where
  chained := hlinks ▸ h.chained
  houses := by
    have hhome : t.home = s.home := by
      funext q
      simp only [Priv.home, haddr, hlive]
    rw [hhome]
    exact h.houses
  nodup := hlive ▸ h.nodup
  unique := by
    intro q hq r hr hqr
    rw [hlive] at hq hr
    rw [haddr, haddr] at hqr
    exact h.unique q hq r hr hqr
  cached := by
    intro q hq
    rw [hcached] at hq
    rw [hlive]
    exact h.cached q hq

theorem Sound.setEntry (h : Sound s b) {e : Entry}
    (he : e.networkAddr = (s.entry p).networkAddr) : Sound (s.setEntry p e) b :=
  h.congr rfl rfl rfl (setEntry_networkAddr he)

structure SameTable (s t : Priv) : Prop where
  links : t.links = s.links
  live : t.live = s.live
  scdbEntry : t.scdbEntry = s.scdbEntry
  networkAddr : ∀ p, (t.entry p).networkAddr = (s.entry p).networkAddr
  macAddr : ∀ p, (t.entry p).macAddr = (s.entry p).macAddr
  ageingTimer : ∀ p, (t.entry p).ageingTimer = (s.entry p).ageingTimer

theorem SameTable.refl (s : Priv) : SameTable s s :=
  ⟨rfl, rfl, rfl, fun _ => rfl, fun _ => rfl, fun _ => rfl⟩

theorem SameTable.trans {r : Priv} (h : SameTable s t) (h' : SameTable t r) : SameTable s r where
  links := h'.links.trans h.links
  live := h'.live.trans h.live
  scdbEntry := h'.scdbEntry.trans h.scdbEntry
  networkAddr p := (h'.networkAddr p).trans (h.networkAddr p)
  macAddr p := (h'.macAddr p).trans (h.macAddr p)
  ageingTimer p := (h'.ageingTimer p).trans (h.ageingTimer p)

theorem Sound.same (h : Sound s b) (hst : SameTable s t) : Sound t b :=
  h.congr hst.links hst.live hst.scdbEntry hst.networkAddr

theorem setEntry_same (s : Priv) (p : ℕ) (n : BitVec 32) :
    SameTable s (s.setEntry p { s.entry p with useCount := n }) := by
  refine ⟨rfl, rfl, rfl, ?_, ?_, ?_⟩
  all_goals
    intro q
    by_cases hq : q = p
    · rw [hq, setEntry_entry, Function.update_self]
    · rw [setEntry_entry, Function.update_of_ne hq]

theorem lookupAndReplace_same (c : Config) (now : ℕ) (s : Priv) (skb : Skb) (a : NetworkAddr) :
    SameTable s (nat25DbNetworkLookupAndReplace c now s skb a).2.2 := by
  simp only [nat25DbNetworkLookupAndReplace]
  split
  · exact .refl s
  · split_ifs
    · exact .refl s
    · exact setEntry_same s _ _

theorem Sound.link (h : Sound s b) {e : Entry} (hp : p ∉ s.live)
    (he : ∀ q ∈ s.live, (s.entry q).networkAddr ≠ e.networkAddr) :
    Sound (newEntry s p e) (insertHead b (nat25NetworkHash e.networkAddr) p) := by
  have hkeep : ∀ q ∈ s.live, (newEntry s p e).entry q = s.entry q := by
    intro q hq
    have hne : q ≠ p := fun h => hp (h ▸ hq)
    exact Function.update_of_ne hne _ _
  have hself : (newEntry s p e).entry p = e := by
    simp only [newEntry, setEntry_entry, Function.update_self]
  refine ⟨?_, ?_, ?_, ?_, ?_⟩
  · exact h.chained.link h.houses (home_eq_none.mpr hp) _
  · have hhome : (newEntry s p e).home =
        Function.update s.home p (some (nat25NetworkHash e.networkAddr)) := by
      funext q
      by_cases hq : q = p
      · subst hq
        rw [Function.update_self, home_eq_some, hself]
        exact ⟨List.mem_cons_self, rfl⟩
      · rw [Function.update_of_ne hq]
        by_cases hlive : q ∈ s.live
        · rw [home_eq_some.mpr ⟨hlive, rfl⟩, home_eq_some, hkeep q hlive]
          exact ⟨List.mem_cons_of_mem p hlive, rfl⟩
        · rw [home_eq_none.mpr hlive, home_eq_none]
          exact List.not_mem_cons_of_ne_of_not_mem hq hlive
    rw [hhome]
    exact h.houses.insertHead (home_eq_none.mpr hp) _
  · exact List.nodup_cons.mpr ⟨hp, h.nodup⟩
  · intro q hq r hr haddr
    rcases List.mem_cons.mp hq with hqp | hqlive
    · rcases List.mem_cons.mp hr with hrp | hrlive
      · rw [hqp, hrp]
      · rw [hqp, hself, hkeep r hrlive] at haddr
        exact absurd haddr.symm (he r hrlive)
    · rcases List.mem_cons.mp hr with hrp | hrlive
      · rw [hrp, hself, hkeep q hqlive] at haddr
        exact absurd haddr (he q hqlive)
      · rw [hkeep q hqlive, hkeep r hrlive] at haddr
        exact h.unique q hqlive r hrlive haddr
  · intro q hq
    exact List.mem_cons_of_mem p (h.cached q hq)

theorem newEntry_entry (s : Priv) (p : ℕ) (e : Entry) :
    (newEntry s p e).entry = Function.update s.entry p e := rfl

@[simp] theorem freeEntry_entry (s : Priv) (f : ℕ) : (freeEntry s f).entry = s.entry := by
  simp only [freeEntry]
  split_ifs <;> rfl

@[simp] theorem freeEntry_live (s : Priv) (f : ℕ) : (freeEntry s f).live = s.live.erase f := by
  simp only [freeEntry]
  split_ifs <;> rfl

@[simp] theorem freeEntry_links (s : Priv) (f : ℕ) :
    (freeEntry s f).links = s.links.unlink f := by
  simp only [freeEntry]
  split_ifs <;> rfl

theorem freeEntry_scdbEntry (s : Priv) (f : ℕ) :
    (freeEntry s f).scdbEntry = if s.scdbEntry = some f then none else s.scdbEntry := by
  simp only [freeEntry]
  split_ifs <;> rfl

theorem Sound.free (h : Sound s b) (hp : p ∈ s.live) :
    Sound (freeEntry s p) (unlink b p) := by
  have hlive : ∀ q, q ∈ (freeEntry s p).live ↔ q ≠ p ∧ q ∈ s.live := by
    intro q
    rw [freeEntry_live, h.nodup.mem_erase_iff]
  refine ⟨?_, ?_, ?_, ?_, ?_⟩
  · rw [freeEntry_links]
    exact h.chained.unlink h.houses (h.mem_bucket.mpr ⟨hp, rfl⟩)
  · have hhome : (freeEntry s p).home = Function.update s.home p none := by
      funext q
      by_cases hq : q = p
      · rw [hq, Function.update_self, home_eq_none, hlive]
        exact fun h => h.1 rfl
      · rw [Function.update_of_ne hq]
        simp only [Priv.home, hlive, freeEntry_entry, ne_eq, hq, not_false_eq_true, true_and]
    rw [hhome]
    exact h.houses.unlink p
  · rw [freeEntry_live]
    exact h.nodup.erase p
  · intro q hq r hr haddr
    rw [freeEntry_entry] at haddr
    exact h.unique q ((hlive q).mp hq).2 r ((hlive r).mp hr).2 haddr
  · intro q hq
    rw [hlive]
    rw [freeEntry_scdbEntry] at hq
    split_ifs at hq with hcached
    refine ⟨?_, h.cached q hq⟩
    rintro rfl
    exact hcached hq

/-! ## The walks -/

def Visits (visit : Priv → ℕ → Priv) : Prop :=
  ∀ s b f, Sound s b → f ∈ s.live →
    ∃ b', Sound (visit s f) b' ∧ (b' = b ∨ b' = unlink b f)

variable {visit : Priv → ℕ → Priv}

theorem walk_eq_foldl (hvisit : Visits visit) {k : Hash} {as rest : List ℕ} {fuel : ℕ}
    (h : Sound s b) (hb : b k = as ++ rest) (hfuel : rest.length ≤ fuel) :
    walk visit fuel rest.head? s = rest.foldl visit s := by
  induction rest generalizing s b as fuel with
  | nil =>
    cases fuel with
    | zero => rfl
    | succ fuel => rfl
  | cons f rest ih =>
    cases fuel with
    | zero => exact absurd hfuel (Nat.not_succ_le_zero _)
    | succ fuel =>
      have hnext : s.links.next f = rest.head? := (hb ▸ h.chained k).next_eq
      have hf : f ∈ b k := hb ▸ List.mem_append_right as List.mem_cons_self
      have hfuel' := Nat.le_of_succ_le_succ hfuel
      obtain ⟨b', hsound, htwo⟩ := hvisit s b f h (h.mem_bucket.mp hf).1
      rw [List.head?_cons, walk, hnext, List.foldl_cons]
      rcases htwo with rfl | rfl
      · refine @ih _ _ (as ++ [f]) _ hsound ?_ hfuel'
        rw [hb, List.append_assoc, List.singleton_append]
      · refine @ih _ _ as _ hsound ?_ hfuel'
        have hnot : f ∉ as := by
          have hn := h.houses.nodup k
          rw [hb] at hn
          exact fun has => (List.disjoint_of_nodup_append hn) has List.mem_cons_self
        rw [unlink, hb, List.erase_append_right _ hnot, List.erase_cons_head]

theorem Sound.walk_bucket (h : Sound s b) (hvisit : Visits visit) (k : Hash) :
    walk visit s.live.length (s.links.head k) s = (b k).foldl visit s := by
  have hhead : s.links.head k = (b k).head? := (h.chained k).get_eq
  rw [hhead]
  exact walk_eq_foldl hvisit h (List.nil_append (b k)).symm (h.length_le k)

theorem foldl_visit (hvisit : Visits visit) {P : Priv → Prop}
    (hP : ∀ s b f, Sound s b → f ∈ s.live → P s → P (visit s f)) {fs : List ℕ} {k : Hash}
    (h : Sound s b) (hs : P s) (hn : fs.Nodup) (hfs : ∀ f ∈ fs, f ∈ b k) :
    ∃ b', Sound (fs.foldl visit s) b' ∧ P (fs.foldl visit s) := by
  induction fs generalizing s b with
  | nil => exact ⟨b, h, hs⟩
  | cons f fs ih =>
    have hf := (h.mem_bucket.mp (hfs f List.mem_cons_self)).1
    obtain ⟨b', hsound, htwo⟩ := hvisit s b f h hf
    have hnot := List.nodup_cons.mp hn
    refine ih hsound (hP s b f h hf hs) hnot.2 ?_
    intro g hg
    have hgb := hfs g (List.mem_cons_of_mem f hg)
    rcases htwo with rfl | rfl
    · exact hgb
    · refine (List.mem_erase_of_ne ?_).mpr hgb
      rintro rfl
      exact hnot.1 hg

structure Inserted (now : ℕ) (mac : MacAddr) (a : NetworkAddr) (s t : Priv) (p : ℕ) : Prop where
  live : ∀ q, q ∈ t.live ↔ q = p ∨ q ∈ s.live
  networkAddr : (t.entry p).networkAddr = a
  macAddr : (t.entry p).macAddr = mac
  ageingTimer : (t.entry p).ageingTimer = jiffies now
  rest : ∀ q, q ≠ p → t.entry q = s.entry q
  only : ∀ q ∈ s.live, (s.entry q).networkAddr = a ↔ q = p

theorem Sound.inserted (h : Sound s b) (now : ℕ) {alloc : Option ℕ} (mac : MacAddr)
    {a : NetworkAddr} (hstored : s.lookup a ≠ none ∨ rtwMalloc s alloc ≠ none) :
    ∃ p, Inserted now mac a s (nat25DbNetworkInsert now alloc s mac a) p := by
  cases hl : s.lookup a with
  | some p =>
    obtain ⟨hp, haddr⟩ := h.lookup_eq_some.mp hl
    simp only [nat25DbNetworkInsert, hl]
    refine ⟨p, ?_, ?_, ?_, ?_, ?_, ?_⟩
    · intro q
      exact ⟨.inr, fun hq => hq.elim (fun h => h ▸ hp) id⟩
    · rw [setEntry_entry, Function.update_self, haddr]
    · rw [setEntry_entry, Function.update_self]
    · rw [setEntry_entry, Function.update_self]
    · intro q hq
      rw [setEntry_entry, Function.update_of_ne hq]
    · intro q hq
      constructor
      · exact fun hqa => h.unique q hq p hp (hqa.trans haddr.symm)
      · rintro rfl
        exact haddr
  | none =>
    obtain ⟨p, hp⟩ := Option.ne_none_iff_exists'.mp (hstored.resolve_left fun h => h hl)
    have hfree : p ∉ s.live := by simpa using (Option.filter_eq_some_iff.mp hp).2
    simp only [nat25DbNetworkInsert, hl, hp]
    refine ⟨p, fun q => List.mem_cons, ?_, ?_, ?_, ?_, ?_⟩
    · rw [newEntry_entry, Function.update_self]
    · rw [newEntry_entry, Function.update_self]
    · rw [newEntry_entry, Function.update_self]
    · intro q hq
      rw [newEntry_entry, Function.update_of_ne hq]
    · intro q hq
      constructor
      · exact fun hqa => absurd hqa (h.lookup_eq_none.mp hl q hq)
      · rintro rfl
        exact absurd hq hfree

theorem Sound.insert (h : Sound s b) (now : ℕ) (alloc : Option ℕ) (mac : MacAddr)
    (a : NetworkAddr) : ∃ b', Sound (nat25DbNetworkInsert now alloc s mac a) b' := by
  simp only [nat25DbNetworkInsert]
  split
  · exact ⟨b, h.setEntry rfl⟩
  · next hl =>
    split
    · exact ⟨b, h⟩
    · next p hp =>
      have hfree : p ∉ s.live := by simpa using (Option.filter_eq_some_iff.mp hp).2
      exact ⟨_, h.link hfree (h.lookup_eq_none.mp hl)⟩

theorem walkAll_spec (hvisit : Visits visit) {P : Priv → Prop}
    (hP : ∀ s b f, Sound s b → f ∈ s.live → P s → P (visit s f)) (h : Sound s b) (hs : P s) :
    ∃ b', Sound (walkAll visit s) b' ∧ P (walkAll visit s) := by
  rw [walkAll]
  induction List.finRange 16 generalizing s b with
  | nil => exact ⟨b, h, hs⟩
  | cons k ks ih =>
    rw [List.foldl_cons, h.walk_bucket hvisit k]
    obtain ⟨b', hsound, hs'⟩ :=
      foldl_visit hvisit hP h hs (h.houses.nodup k) fun f hf => hf
    exact ih hsound hs'

/-! ## Times -/

theorem not_hasExpired (c : Config) {now at' : ℕ} (e : Entry) (he : e.ageingTimer = jiffies at')
    (hle : at' ≤ now) (hyoung : now - at' < nat25AgeingTime * c.hz) :
    nat25HasExpired c now e = false := by
  have hdiff : (nat25Timeout c now - e.ageingTimer).toInt =
      ((now : ℤ) - (nat25AgeingTime * c.hz : ℕ) - at').bmod (2 ^ 64) := by
    rw [he]
    simp only [nat25Timeout, jiffies, BitVec.toInt_sub, BitVec.toInt_ofNat', Int.bmod_sub_bmod,
      Int.sub_bmod_bmod]
  have hle' := c.hz_le
  rw [nat25HasExpired, timeBeforeEq, hdiff, decide_eq_false_iff_not, Int.bmod_eq_of_le]
  · omega
  · omega
  · omega

theorem visits_freeEntry : Visits freeEntry := fun _ b f h hf => ⟨unlink b f, h.free hf, .inr rfl⟩

theorem visits_expireEntry (c : Config) (now : ℕ) : Visits (expireEntry c now) := by
  intro s b f h hf
  simp only [expireEntry]
  split_ifs
  · exact ⟨unlink b f, Sound.free (Sound.setEntry h rfl) hf, .inr rfl⟩
  · exact ⟨b, h.setEntry rfl, .inl rfl⟩
  · exact ⟨b, h, .inl rfl⟩

theorem expire_spec (c : Config) (now : ℕ) {P : Priv → Prop} (h : Sound s b) (hs : P s)
    (hP : ∀ s b f, Sound s b → f ∈ s.live → P s → P (expireEntry c now s f)) :
    ∃ b', Sound (nat25DbExpire c now s) b' ∧ P (nat25DbExpire c now s) :=
  walkAll_spec (visits_expireEntry c now) hP h hs

theorem foldl_freeEntry (fs : List ℕ) (s : Priv) :
    (fs.foldl freeEntry s).live = s.live.diff fs ∧ (fs.foldl freeEntry s).entry = s.entry := by
  induction fs generalizing s with
  | nil => exact ⟨rfl, rfl⟩
  | cons f fs ih =>
    rw [List.foldl_cons, List.diff_cons]
    have hrest := ih (freeEntry s f)
    rwa [freeEntry_live, freeEntry_entry] at hrest

theorem cleanup_live (h : Sound s b) : (nat25DbCleanup s).live = [] := by
  have hall : ∀ (ks : List Hash) (s : Priv) (b : Hash → List ℕ), Sound s b →
      (∀ p ∈ s.live, nat25NetworkHash (s.entry p).networkAddr ∈ ks) →
      (ks.foldl (fun s i => walk freeEntry s.live.length (s.links.head i) s) s).live = [] := by
    intro ks
    induction ks with
    | nil =>
      intro s b _ hs
      exact List.eq_nil_iff_forall_not_mem.mpr fun p hp => List.not_mem_nil (hs p hp)
    | cons k ks ih =>
      intro s b h hs
      rw [List.foldl_cons, h.walk_bucket visits_freeEntry k]
      obtain ⟨b', hsound, -⟩ := foldl_visit (P := fun _ => True) visits_freeEntry
        (fun _ _ _ _ _ _ => trivial) h trivial (h.houses.nodup k) fun f hf => hf
      refine ih _ b' hsound ?_
      intro p hp
      rw [(foldl_freeEntry (b k) s).1, h.nodup.mem_sdiff_iff] at hp
      rw [(foldl_freeEntry (b k) s).2]
      rcases List.mem_cons.mp (hs p hp.1) with hk | hks
      · exact absurd (h.mem_bucket.mpr ⟨hp.1, hk⟩) hp.2
      · exact hks
  exact hall _ s b h fun p _ => List.mem_finRange _

theorem Sound.cleanup (h : Sound s b) : ∃ b', Sound (nat25DbCleanup s) b' := by
  obtain ⟨b', hsound, -⟩ := walkAll_spec (P := fun _ => True) visits_freeEntry
    (fun _ _ _ _ _ _ => trivial) h trivial
  exact ⟨b', hsound⟩

end Rtl8189.Nat25Table
