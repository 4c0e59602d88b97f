import Rtl8189.BcnKeys
import Rtl8189.ElementWalk
import Rtl8189.Lockstep

/-!
# Changes of the access point

`OnBeacon` takes the keys of a beacon for a reference when a station joins, and
`rtw_check_bcn_info` compares those of each later beacon with it. A station is disconnected when
they differ in more than may change.
-/
namespace Rtl8189.BeaconChange

open BcnKeys EventRun Lockstep

open CollectBss (SurveyFrame)

open ElementWalk (validateBeaconLen)

open BcnKeys.Ssid (Hidden)

inductive Link where
  | null
  | authNull
  | authenticating
  | associated
  deriving DecidableEq, Repr

structure Network where
  bssid : List UInt8
  ssid : Ssid

/-- A beacon, and how it meets the adapter: whether a scan goes on, whether `rtw_get_stainfo`
finds the sender, whether the linking test lets the station join, whether the join is aborted,
whether there is memory for the network, and whether a disconnection can be reported. -/
structure Beacon where
  frame : SurveyFrame
  isBeacon : frame.subtype = SurveyFrame.wifiBeacon
  env : CollectBss.Adapter
  scanning : Bool := false
  known : Bool := true
  waitDone : Bool := true
  forceFail : Bool := false
  joinAbort : Bool := false
  allocated : Bool := true
  reported : Bool := true

inductive Event where
  | joinCmd (network : Network)
  | assocSuccess
  | leave
  | beacon (b : Beacon)

inductive Route where
  | ignored
  | join
  | check
  deriving DecidableEq, Repr

namespace Beacon

variable (b : Beacon)

def valid : Bool := validateBeaconLen ⟨b.frame.bytes, b.frame.bytes.length, b.frame.fits⟩

def keys : Option BeaconKeys := rtwGetBcnKeys b.frame b.env.curChannel

/-- `collect_bss_info` succeeds. No search for a P2P attribute is made in a beacon. -/
def Collected : Prop := b.allocated = true ∧ (b.frame.collect b.env 0).ret.isSome = true

instance : Decidable b.Collected := inferInstanceAs (Decidable (_ ∧ _))

def route (link : Link) (network : Network) : Route :=
  if ¬ b.valid then .ignored
  else if b.scanning then
    if b.frame.getAddr3 = network.bssid ∧ link = .associated then .check else .ignored
  else if b.frame.getAddr3 ≠ network.bssid then .ignored
  else if link = .authNull ∧ (b.waitDone ∨ b.joinAbort) then
    if b.forceFail ∨ b.joinAbort then .ignored else .join
  else if link = .associated ∧ b.known then .check
  else .ignored

def afterDisconnect : Link := if b.reported then .null else .associated

end Beacon

/-! ## The comparison -/

def rtwIsChbwGrouped (a b : Chbw) : Bool :=
  if a.ch ≠ b.ch then false
  else if (a.bw = .w40 ∨ a.bw = .w80) ∧ (b.bw = .w40 ∨ b.bw = .w80) then
    decide (a.offset = b.offset)
  else true

def unhide (cur recv : BeaconKeys) : BeaconKeys :=
  if Hidden recv.shown then { recv with toSsid := recv.toSsid.patch cur.toSsid } else recv

/-- The fields that are not compared are taken from the beacon. -/
def excludeFields (cur recv : BeaconKeys) : BeaconKeys where
  toSsid := cur.toSsid
  toChbw := recv.toChbw
  toProtection := cur.toProtection
  protoCap := recv.protoCap
  rateSet := recv.rateSet
  rateNum := recv.rateNum

/-- The new reference; `none` where a disconnect is asked for. -/
def compareKeys (cur recv : BeaconKeys) : Option BeaconKeys :=
  if recv = cur then some cur
  else if ¬ rtwIsChbwGrouped cur.toChbw recv.toChbw then none
  else if excludeFields cur recv ≠ recv then none
  else some recv

/-! ## The station -/

structure Station where
  link : Link
  network : Network
  cur : BeaconKeys

namespace Station

variable (s : Station)

def rtwCheckBcnInfo (b : Beacon) : Option BeaconKeys :=
  if s.link ≠ .associated then some s.cur
  else
    match b.keys with
    | none => some s.cur
    | some recv => compareKeys s.cur (unhide s.cur recv)

/-- `cur_beacon_keys` after the beacon with which the station joins. -/
def joinKeys (b : Beacon) : BeaconKeys :=
  if b.Collected then
    match b.keys with
    | none => zeroKeys
    | some recv => if Hidden recv.shown then { recv with toSsid := s.network.ssid } else recv
  else s.cur

def onBeacon (b : Beacon) : Station :=
  match b.route s.link s.network with
  | .ignored => s
  | .join => { s with link := .authenticating, cur := s.joinKeys b }
  | .check =>
    match s.rtwCheckBcnInfo b with
    | some cur => { s with cur := cur }
    | none => { s with link := b.afterDisconnect }

def step : Event → Station
  | .joinCmd network => { s with link := .authNull, network := network }
  | .assocSuccess => if s.link = .authenticating then { s with link := .associated } else s
  | .leave => { s with link := .null }
  | .beacon b => s.onBeacon b

def asks : Event → Bool
  | .beacon b => b.route s.link s.network = .check ∧ s.rtwCheckBcnInfo b = none
  | _ => false

def machine : Machine Station Event Bool := ⟨step, asks⟩

end Station

/-! ## What may change -/

/-- What a beacon says of the access point, as far as it may not change. -/
structure Setting where
  name : List UInt8
  chbw : Chbw
  protection : Protection
  deriving DecidableEq

/-- The same channel, and no two secondary channels of which each is at another side. -/
def Grouped (a b : Chbw) : Prop :=
  a.ch = b.ch ∧ (a.bw ≠ .w20 → b.bw ≠ .w20 → a.offset = b.offset)

instance (a b : Chbw) : Decidable (Grouped a b) := inferInstanceAs (Decidable (_ ∧ _))

namespace Setting

/-- A hidden name counts as unchanged. -/
def Agrees (r o : Setting) : Prop :=
  Grouped r.chbw o.chbw ∧ (Hidden r.name ∨ Hidden o.name ∨ r.name = o.name) ∧
    r.protection = o.protection

instance (r o : Setting) : Decidable (r.Agrees o) := inferInstanceAs (Decidable (_ ∧ _ ∧ _))

def named (o : Setting) (known : List UInt8) : Setting :=
  if Hidden o.name then { o with name := known } else o

end Setting

def setting (k : BeaconKeys) : Setting := ⟨k.shown, k.toChbw, k.toProtection⟩

/-- A station that remembers the setting of the last beacon that was parsed and accepted. -/
structure Watch where
  link : Link
  network : Network
  reference : Option Setting

namespace Watch

variable (w : Watch)

def observe (b : Beacon) : Option Setting := b.keys.map setting

def Changed (b : Beacon) : Prop := ∃ r ∈ w.reference, ∃ o ∈ observe b, ¬ r.Agrees o

instance (b : Beacon) : Decidable (w.Changed b) :=
  inferInstanceAs (Decidable (∃ r ∈ w.reference, ∃ o ∈ observe b, ¬ r.Agrees o))

def knownName : List UInt8 := (w.reference.map Setting.name).getD w.network.ssid.shown

def accept (b : Beacon) : Option Setting :=
  match observe b with
  | some o => some (o.named w.knownName)
  | none => w.reference

def onBeacon (b : Beacon) : Watch :=
  match b.route w.link w.network with
  | .ignored => w
  | .join =>
    { w with
      link := .authenticating
      reference := (observe b).map (Setting.named · w.network.ssid.shown) }
  | .check =>
    if w.Changed b then { w with link := b.afterDisconnect }
    else { w with reference := w.accept b }

def step : Event → Watch
  | .joinCmd network => { w with link := .authNull, network := network }
  | .assocSuccess => if w.link = .authenticating then { w with link := .associated } else w
  | .leave => { w with link := .null }
  | .beacon b => w.onBeacon b

def asks : Event → Bool
  | .beacon b => b.route w.link w.network = .check ∧ w.Changed b
  | _ => false

def machine : Machine Watch Event Bool := ⟨step, asks⟩

end Watch

/-! ## The condition -/

/-- The beacon with which the station joins is collected and parsed, and if it is hidden there
are only zeros behind the name that is joined. -/
def JoinKept (network : Network) (b : Beacon) : Prop :=
  b.Collected ∧ ∃ k ∈ b.keys, Hidden k.shown → network.ssid.Clean

instance (network : Network) (b : Beacon) : Decidable (JoinKept network b) :=
  inferInstanceAs (Decidable (_ ∧ ∃ k ∈ b.keys, Hidden k.shown → network.ssid.Clean))

def NameKept (cur : BeaconKeys) (b : Beacon) : Prop :=
  ∀ k ∈ b.keys, Hidden cur.shown → Hidden k.shown

instance (cur : BeaconKeys) (b : Beacon) : Decidable (NameKept cur b) :=
  inferInstanceAs (Decidable (∀ k ∈ b.keys, Hidden cur.shown → Hidden k.shown))

def Kept (s : Station) : Event → Prop
  | .beacon b =>
    (b.route s.link s.network = .join → JoinKept s.network b) ∧
      (b.route s.link s.network = .check → NameKept s.cur b)
  | _ => True

instance (s : Station) : ∀ e, Decidable (Kept s e)
  | .beacon b => inferInstanceAs (Decidable ((_ → JoinKept s.network b) ∧ (_ → NameKept s.cur b)))
  | .joinCmd _ => inferInstanceAs (Decidable True)
  | .assocSuccess => inferInstanceAs (Decidable True)
  | .leave => inferInstanceAs (Decidable True)

/-! ## One comparison -/

theorem grouped_iff {a b : Chbw} : rtwIsChbwGrouped a b = true ↔ Grouped a b := by
  rw [rtwIsChbwGrouped, Grouped]
  cases a.bw <;> cases b.bw <;> simp

theorem grouped_refl (a : Chbw) : Grouped a a := ⟨rfl, fun _ _ => rfl⟩

section Compare

variable {cur recv : BeaconKeys}

theorem exclude_eq_iff : excludeFields cur recv = recv ↔
    cur.toSsid = recv.toSsid ∧ cur.toProtection = recv.toProtection := by
  constructor
  · intro h
    have hssid := congrArg BeaconKeys.toSsid h
    have hprotection := congrArg BeaconKeys.toProtection h
    exact ⟨hssid, hprotection⟩
  · rintro ⟨hssid, hprotection⟩
    rw [excludeFields, hssid, hprotection]

theorem compare_eq : compareKeys cur recv =
    if Grouped cur.toChbw recv.toChbw ∧ cur.toSsid = recv.toSsid ∧
      cur.toProtection = recv.toProtection then some recv else none := by
  rw [compareKeys]
  by_cases hsame : recv = cur
  · subst hsame
    rw [if_pos rfl, if_pos ⟨grouped_refl _, rfl, rfl⟩]
  · rw [if_neg hsame]
    by_cases hgrouped : Grouped cur.toChbw recv.toChbw
    · rw [if_neg (not_not.mpr (grouped_iff.mpr hgrouped))]
      simp only [ne_eq, exclude_eq_iff, hgrouped, true_and, ite_not]
    · rw [if_pos (fun h => hgrouped (grouped_iff.mp h)), if_neg (fun h => hgrouped h.1)]

theorem setting_unhide : setting (unhide cur recv) = (setting recv).named cur.shown := by
  by_cases hhidden : Hidden recv.shown
  · rw [unhide, if_pos hhidden, setting, Ssid.shown_patch]
    exact (if_pos hhidden).symm
  · rw [unhide, if_neg hhidden]
    exact (if_neg hhidden).symm

theorem unhide_clean (h : recv.toSsid.Clean) : (unhide cur recv).toSsid.Clean := by
  rw [unhide]
  split
  · next hhidden => exact h.patch hhidden
  · exact h

theorem agrees_iff {r o : Setting} (h : Hidden r.name → Hidden o.name) : r.Agrees o ↔
    Grouped r.chbw o.chbw ∧ r.name = (o.named r.name).name ∧ r.protection = o.protection := by
  have hname : (Hidden r.name ∨ Hidden o.name ∨ r.name = o.name) ↔
      r.name = (o.named r.name).name := by
    rw [Setting.named]
    by_cases ho : Hidden o.name
    · rw [if_pos ho]
      exact iff_of_true (.inr (.inl ho)) rfl
    · rw [if_neg ho, or_iff_right fun hr => ho (h hr), or_iff_right ho]
  rw [Setting.Agrees, hname]

@[simp] theorem named_chbw (o : Setting) (known : List UInt8) : (o.named known).chbw = o.chbw := by
  rw [Setting.named]
  split <;> rfl

@[simp] theorem named_protection (o : Setting) (known : List UInt8) :
    (o.named known).protection = o.protection := by
  rw [Setting.named]
  split <;> rfl

/-- A disconnect is asked for if and only if the settings do not agree. -/
theorem compare_spec (hcur : cur.toSsid.Clean) (hrecv : recv.toSsid.Clean)
    (hname : Hidden cur.shown → Hidden recv.shown) :
    compareKeys cur (unhide cur recv) =
      if (setting cur).Agrees (setting recv) then some (unhide cur recv) else none := by
  have hsetting : setting (unhide cur recv) = (setting recv).named (setting cur).name :=
    setting_unhide
  have hssid : cur.toSsid = (unhide cur recv).toSsid ↔
      (setting cur).name = ((setting recv).named (setting cur).name).name := by
    rw [hcur.eq_iff (unhide_clean hrecv), ← hsetting]
    rfl
  have hchbw : (unhide cur recv).toChbw = (setting recv).chbw := by
    rw [← named_chbw (setting recv) (setting cur).name, ← hsetting]
    rfl
  have hprotection : (unhide cur recv).toProtection = (setting recv).protection := by
    rw [← named_protection (setting recv) (setting cur).name, ← hsetting]
    rfl
  rw [compare_eq]
  refine if_congr ?_ rfl rfl
  rw [hssid, hchbw, hprotection]
  exact (agrees_iff (r := setting cur) (o := setting recv) hname).symm

end Compare

/-! ## Runs -/

/-- From the beacon with which the station joins on, the watch knows the reference. -/
structure Tracks (s : Station) (w : Watch) : Prop where
  link : w.link = s.link
  network : w.network = s.network
  known : s.link = .authenticating ∨ s.link = .associated →
    s.cur.toSsid.Clean ∧ w.reference = some (setting s.cur)

section Step

variable {s : Station} {w : Watch} {b : Beacon}

theorem observe_eq {k : BeaconKeys} (h : b.keys = some k) : Watch.observe b = some (setting k) := by
  rw [Watch.observe, h]
  rfl

theorem route_check {link : Link} {network : Network} (h : b.route link network = .check) :
    link = .associated := by
  rw [Beacon.route] at h
  split_ifs at h with _ _ hscan _ _ _ hknown
  · exact hscan.2
  · exact hknown.1

theorem join_keys (h : JoinKept s.network b) :
    (s.joinKeys b).toSsid.Clean ∧
      (Watch.observe b).map (Setting.named · s.network.ssid.shown) =
        some (setting (s.joinKeys b)) := by
  obtain ⟨hcollected, k, hk, hname⟩ := h
  have hkeys : b.keys = some k := hk
  rw [Station.joinKeys, if_pos hcollected, hkeys, observe_eq hkeys]
  dsimp only
  by_cases hhidden : Hidden k.shown
  · rw [if_pos hhidden]
    exact ⟨hname hhidden, congrArg some (if_pos hhidden)⟩
  · rw [if_neg hhidden]
    exact ⟨keys_clean hkeys, congrArg some (if_neg hhidden)⟩

theorem check_spec (hst : Tracks s w) (hlink : s.link = .associated) (hname : NameKept s.cur b) :
    (s.rtwCheckBcnInfo b = none ↔ w.Changed b) ∧
      ∀ cur, s.rtwCheckBcnInfo b = some cur →
        cur.toSsid.Clean ∧ w.accept b = some (setting cur) := by
  obtain ⟨hclean, href⟩ := hst.known (.inr hlink)
  have hassoc : ¬ s.link ≠ .associated := not_not.mpr hlink
  rw [Station.rtwCheckBcnInfo, if_neg hassoc]
  cases hkeys : b.keys with
  | none =>
    have hobserve : Watch.observe b = none := congrArg (Option.map setting) hkeys
    refine ⟨iff_of_false nofun ?_, fun cur hcur => ?_⟩
    · rintro ⟨r, -, o, ho, -⟩
      rw [hobserve] at ho
      exact nomatch ho
    · cases hcur
      rw [Watch.accept, hobserve]
      exact ⟨hclean, href⟩
  | some recv =>
    have hcompare := compare_spec hclean (keys_clean hkeys) (hname recv hkeys)
    have hchanged : w.Changed b ↔ ¬ (setting s.cur).Agrees (setting recv) := by
      simp only [Watch.Changed, href, observe_eq hkeys, Option.mem_some_iff, exists_eq_left']
    dsimp only
    rw [hcompare, hchanged]
    constructor
    · split <;> simp [*]
    · intro cur hcur
      rw [Option.ite_none_right_eq_some] at hcur
      obtain rfl := Option.some.inj hcur.2
      have hknown : w.knownName = s.cur.shown := by
        rw [Watch.knownName, href]
        rfl
      refine ⟨unhide_clean (keys_clean hkeys), ?_⟩
      rw [Watch.accept, observe_eq hkeys, hknown, setting_unhide]

theorem Tracks.asks_eq (hst : Tracks s w) {e : Event} (he : Kept s e) : s.asks e = w.asks e := by
  cases e with
  | beacon b =>
    refine decide_eq_decide.mpr ?_
    rw [hst.link, hst.network]
    refine and_congr_right fun hroute => ?_
    exact (check_spec hst (route_check hroute) (he.2 hroute)).1
  | joinCmd network => rfl
  | assocSuccess => rfl
  | leave => rfl

theorem Tracks.onBeacon (hst : Tracks s w) (he : Kept s (.beacon b)) :
    Tracks (s.onBeacon b) (w.onBeacon b) := by
  rw [Station.onBeacon, Watch.onBeacon, hst.link, hst.network]
  cases hroute : b.route s.link s.network with
  | ignored => exact hst
  | join =>
    exact ⟨rfl, rfl, fun _ => join_keys (he.1 hroute)⟩
  | check =>
    have hlink := route_check hroute
    obtain ⟨hchanged, haccept⟩ := check_spec hst hlink (he.2 hroute)
    dsimp only
    cases hcheck : s.rtwCheckBcnInfo b with
    | none =>
      rw [if_pos (hchanged.mp hcheck)]
      exact ⟨rfl, rfl, fun _ => hst.known (.inr hlink)⟩
    | some cur =>
      have hsame : ¬ w.Changed b := fun h => nomatch hcheck.symm.trans (hchanged.mpr h)
      rw [if_neg hsame]
      exact ⟨rfl, rfl, fun _ => haccept cur hcheck⟩

theorem Tracks.step (hst : Tracks s w) {e : Event} (he : Kept s e) :
    Tracks (s.step e) (w.step e) := by
  cases e with
  | beacon b => exact hst.onBeacon he
  | joinCmd network => exact ⟨rfl, rfl, nofun⟩
  | leave => exact ⟨rfl, hst.network, nofun⟩
  | assocSuccess =>
    rw [Station.step, Watch.step, hst.link]
    split
    · next hlink => exact ⟨rfl, hst.network, fun _ => hst.known (.inl hlink)⟩
    · exact hst

end Step

theorem station_simulates : Simulates Station.machine Watch.machine Kept Tracks :=
  ⟨fun _ _ _ hst he => hst.asks_eq he, fun _ _ _ hst he => hst.step he⟩

def Station.start (network : Network) (cur : BeaconKeys) : Station := ⟨.null, network, cur⟩

def Watch.start (network : Network) : Watch := ⟨.null, network, none⟩

/-- As long as the beacon at each join is collected and parsed, with a clean name to join if it is
hidden, and no name is shown where the reference has none, a disconnect is asked for just when the
beacon is parsed and its setting does not agree with that of the last one accepted. -/
theorem changes_seen (network : Network) (cur : BeaconKeys) (es : List Event)
    (hes : Along Station.step Kept (Station.start network cur) es) :
    Station.machine.answers (Station.start network cur) es =
      Watch.machine.answers (Watch.start network) es :=
  station_simulates.answers_eq ⟨rfl, rfl, nofun⟩ hes

/-! ## Two runs -/

/-- A frame of the access point `02:02:02:02:02:02`. -/
def beaconFrame (elems : List UInt8) (h : elems.length < 1000) : SurveyFrame where
  bytes := [0x80, 0, 0, 0] ++ List.replicate 6 0xff ++ List.replicate 12 2 ++ [0, 0] ++
    List.replicate 8 0 ++ [100, 0, 1, 0] ++ elems
  header := by
    simp only [List.length_append, List.length_replicate, List.length_cons, List.length_nil]
    omega
  fits := by
    simp only [List.length_append, List.length_replicate, List.length_cons, List.length_nil]
    omega

def channelSix : CollectBss.Adapter := ⟨false, false, 0, 6, 6, false, false⟩

def beaconOf (elems : List UInt8) (h : elems.length < 1000) : Beacon where
  frame := beaconFrame elems h
  isBeacon := by
    have hfirst : byteAt (beaconFrame elems h).bytes 0 = 0x80 := rfl
    rw [SurveyFrame.subtype, hfirst]
    rfl
  env := channelSix

def nameAndRates : List UInt8 := [0, 2, 65, 80, 1, 4, 0x82, 0x84, 0x8b, 0x96]

def plainBeacon : Beacon := beaconOf (nameAndRates ++ [3, 1, 6]) (by decide)

def shortHtBeacon : Beacon := beaconOf (nameAndRates ++ [3, 1, 6, 45, 2, 0, 0]) (by decide)

def movedBeacon : Beacon := beaconOf (nameAndRates ++ [3, 1, 11]) (by decide)

def apNetwork : Network := ⟨List.replicate 6 2, .ofName [65, 80] (by decide)⟩

theorem changes_seen_moved : Station.machine.answers (Station.start apNetwork zeroKeys)
    [.joinCmd apNetwork, .beacon plainBeacon, .assocSuccess, .beacon shortHtBeacon,
      .beacon plainBeacon, .beacon movedBeacon] = [false, false, false, false, false, true] :=
  (changes_seen apNetwork zeroKeys _ (by decide +kernel)).trans (by decide +kernel)

/-- The beacon with which the station joins is not parsed. The next one is dropped, though the
access point says nothing else in it. -/
theorem unchanged_dropped :
    Station.machine.answers (Station.start apNetwork zeroKeys)
        [.joinCmd apNetwork, .beacon shortHtBeacon, .assocSuccess, .beacon plainBeacon] =
      [false, false, false, true] ∧
    Watch.machine.answers (Watch.start apNetwork)
        [.joinCmd apNetwork, .beacon shortHtBeacon, .assocSuccess, .beacon plainBeacon] =
      [false, false, false, false] := by
  constructor <;> decide +kernel

end Rtl8189.BeaconChange
