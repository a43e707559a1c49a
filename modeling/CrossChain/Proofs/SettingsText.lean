import CrossChain.Proofs.Records
import CrossChain.Settings.Text

/-!
# Settings as text

Settings are kept as JSON, and people edit them by hand. What comes back from an editor is seldom
the text that was written: members are moved around and blanks are put in, digits of an address
change their case, fields with a usual value are taken out and remarks are put in. None of this may
change what the settings say.

All these texts have one thing in common. They are the texts of records with the same fields, so
that it is enough to say, for each field, what stands for it and when it may be missing, and to show
that its reader finds the value again.

## Main statements

* `Hex.decode?_encode`, `Hex.decode?_map_toLower`, `Json.toInt?_ofInt`: single values.
* `Settings.deploymentFields`: what settings may be written as.
* `Settings.deployment?_of_record`: whatever they are written as, they are read.
* `Settings.record_toJson`: what is written is one of the ways.
* `DeploymentSettings.text_laws`: writing and reading, for every text.
-/

namespace CrossChain

open Json

/-! ## §1 Single values -/

namespace Hex

/-- The case of a digit does not matter. -/
theorem value?_toLower (c : Char) : value? c.toLower = value? c := by
  by_cases hupper : c.val ≥ 'A'.val ∧ c.val ≤ 'Z'.val
  · obtain ⟨hlow, hhigh⟩ : 65 ≤ c.toNat ∧ c.toNat ≤ 90 := by
      simpa [UInt32.le_iff_toNat_le] using hupper
    rw [← Char.ofNat_toNat c]
    generalize c.toNat = n at hlow hhigh
    interval_cases n <;> rfl
  · have hsame : c.toLower = c := dif_neg hupper
    rw [hsame]

theorem decode?_map_toLower (text : List Char) :
    decode? (text.map Char.toLower) = decode? text := by
  fun_induction decode? text with
  | case1 => rfl
  | case2 => rfl
  | case3 high low rest ih =>
    simp only [List.map_cons, decode?, value?_toLower, ih]

theorem decode?_encode (bytes : Bytes) : decode? (encode bytes) = some bytes := by
  induction bytes with
  | nil => rfl
  | cons b rest ih =>
    have hb : b.toNat < 256 := b.toNat_lt
    have hbyte : UInt8.ofNat (16 * (b.toNat / 16) + b.toNat % 16) = b := by
      rw [Nat.div_add_mod, UInt8.ofNat_toNat]
    have hencode : encode (b :: rest) =
        digit (b.toNat / 16) :: digit (b.toNat % 16) :: encode rest := rfl
    rw [hencode, decode?, value?_digit (by omega), value?_digit (by omega), ih]
    show some (_ :: _) = _
    rw [hbyte]

theorem toLower_digit {n : ℕ} (h : n < 16) : (digit n).toLower = digit n := by
  interval_cases n <;> rfl

/-- What is written is in lower case. -/
theorem map_toLower_encode (bytes : Bytes) : (encode bytes).map Char.toLower = encode bytes := by
  have hlower : ∀ c ∈ encode bytes, c.toLower = c := by
    intro c hc
    obtain ⟨b, _, hc⟩ := List.mem_flatMap.mp hc
    have hb : b.toNat < 256 := b.toNat_lt
    rcases List.mem_pair.mp hc with rfl | rfl
    · exact toLower_digit (by omega)
    · exact toLower_digit (by omega)
  exact (List.map_congr_left hlower).trans (List.map_id _)

end Hex

namespace Json

theorem natOfDigits_toDigits (n : ℕ) : natOfDigits (Nat.toDigits 10 n) = n :=
  Nat.ofDigitChars_toDigits (by decide) (by decide)

theorem all_isDigit_toDigits (n : ℕ) : (Nat.toDigits 10 n).all Char.isDigit = true := by
  rw [List.all_eq_true]
  intro c hc
  exact Nat.isDigit_of_mem_toDigits (by decide) (by decide) hc

theorem toInt?_ofNat (n : ℕ) : (ofNat n).toInt? = some (n : ℤ) := by
  have hall := all_isDigit_toDigits n
  rw [ofNat]
  unfold toInt?
  split
  next digits hdigits =>
    rw [Json.number.injEq] at hdigits
    rw [hdigits] at hall
    cases hall
  next digits _ hdigits =>
    cases hdigits
    rw [if_pos hall, natOfDigits_toDigits]
  next hnone => exact absurd rfl (hnone _)

theorem toInt?_ofInt (z : ℤ) : (ofInt z).toInt? = some z := by
  cases z with
  | ofNat n => exact toInt?_ofNat n
  | negSucc n =>
    have hvalue := natOfDigits_toDigits (n + 1)
    rw [ofInt, toInt?, if_pos ⟨all_isDigit_toDigits _, by omega⟩, hvalue]
    rfl

end Json

namespace Settings

theorem natBelow?_ofNat {n bound : ℕ} (h : n < bound) : natBelow? bound (ofNat n) = some n := by
  rw [natBelow?, toInt?_ofNat]
  show (if _ then _ else _) = _
  rw [if_pos (by omega)]
  rfl

theorem chainId?_ofNat (chain : ChainId) : chainId? (ofNat chain.number.toNat) = some chain := by
  rw [chainId?, natBelow?_ofNat chain.number.toNat_lt]
  simp

theorem amount?_ofNat (amount : UInt64) : amount? (ofNat amount.toNat) = some amount := by
  rw [amount?, natBelow?_ofNat amount.toNat_lt]
  simp

theorem byte?_ofNat (b : UInt8) : byte? (ofNat b.toNat) = some b := by
  rw [byte?, natBelow?_ofNat b.toNat_lt]
  simp

theorem timestamp?_ofInt (time : Timestamp) : timestamp? (ofInt time.toInt) = some time := by
  have hlow : Int64.minValue.toInt ≤ time.toInt := Int64.le_toInt time
  have hhigh : time.toInt ≤ Int64.maxValue.toInt := Int64.toInt_le time
  rw [timestamp?, toInt?_ofInt]
  show (if _ then _ else _) = _
  rw [if_pos ⟨hlow, hhigh⟩, Int64.ofInt_toInt]

theorem case?_ofString (s : String) : (ofString s).case? = some s := by
  simp [ofString, case?]

theorem mode?_ofString (mode : Mode) : mode? (ofString mode.name) = some mode := by
  rw [mode?, case?_ofString]
  cases mode <;> rfl

theorem dustPolicy?_ofString (policy : DustPolicy) :
    dustPolicy? (ofString policy.name) = some policy := by
  rw [dustPolicy?, case?_ofString]
  cases policy <;> rfl

theorem threshold?_ofThreshold (threshold : Option UInt8) :
    threshold? (ofThreshold threshold) = some threshold := by
  cases threshold with
  | none => rfl
  | some t =>
    rw [ofThreshold, threshold?, byte?_ofNat]
    · rfl
    · exact fun h => nomatch h

end Settings

/-! ## §2 What settings may be written as -/

namespace Settings

/-- The texts of an address: its digits are of either case. -/
def WritesAddress (address : Address) (v : Json) : Prop :=
  ∃ digits, v = .text (some digits) ∧ digits.map Char.toLower = Hex.encode address.toList

/-- The lists of values that stand for the given ones. -/
def WritesList {α : Type} (holds : α → Json → Prop) (items : List α) (v : Json) : Prop :=
  ∃ values, v = .array values ∧ List.Forall₂ holds items values

/-- The fields of the settings of a manager. -/
def managerFields (s : ManagerSettings) : List Field := [
  ⟨"address", WritesAddress s.address, False⟩,
  ⟨"chain_id", (· = ofNat s.chain.number.toNat), False⟩,
  ⟨"mode", (· = ofString s.mode.name), False⟩,
  ⟨"limit", (· = ofNat s.limit.toNat), False⟩,
  ⟨"rate_limit_duration", (· = ofInt s.rateLimitDuration.toInt),
    s.rateLimitDuration = RateLimit.standardDuration⟩,
  ⟨"dust_policy", (· = ofString s.dustPolicy.name), s.dustPolicy = .truncate⟩]

/-- The fields of a transceiver. -/
def transceiverFields (s : TransceiverSettings) : List Field := [
  ⟨"address", WritesAddress s.address, False⟩]

/-- The fields of a peer. -/
def peerFields (s : PeerSettings) : List Field := [
  ⟨"chain_id", (· = ofNat s.chain.number.toNat), False⟩,
  ⟨"address", WritesAddress s.address, False⟩,
  ⟨"token_decimals", (· = ofNat s.tokenDecimals.toNat), False⟩,
  ⟨"inbound_limit", (· = ofNat s.inboundLimit.toNat), False⟩]

/-- The fields of a whole deployment. -/
def deploymentFields (s : DeploymentSettings) : List Field := [
  ⟨"owner", WritesAddress s.owner, False⟩,
  ⟨"manager", Record (managerFields s.manager), False⟩,
  ⟨"transceivers", WritesList (fun t => Record (transceiverFields t)) s.transceivers,
    s.transceivers = []⟩,
  ⟨"peers", WritesList (fun p => Record (peerFields p)) s.peers, s.peers = []⟩,
  ⟨"threshold", (· = ofThreshold s.threshold), s.threshold = none⟩,
  ⟨"paused", (· = .bool s.paused), s.paused = false⟩]

/-! ## §3 Reading -/

theorem address?_of_writes {address : Address} {v : Json} (h : WritesAddress address v) :
    address? v = some address := by
  obtain ⟨digits, rfl, hdigits⟩ := h
  have hdecode : Hex.decode? digits = some address.toList := by
    rw [← Hex.decode?_map_toLower, hdigits, Hex.decode?_encode]
  have harray : address.toList.toArray = address.toArray := Array.toArray_toList
  simp [address?, text?, Hex.decodeBlock?, hdecode, harray]

theorem listOf?_of_writes {α : Type} {holds : α → Json → Prop} {read : Json → Option α}
    {items : List α} {v : Json} (h : WritesList holds items v)
    (hread : ∀ item v, holds item v → read v = some item) : listOf? read v = some items := by
  obtain ⟨values, rfl, hvalues⟩ := h
  rw [listOf?]
  induction hvalues with
  | nil => rfl
  | cons hfirst _ ih =>
    rw [List.mapM_cons, hread _ _ hfirst, ih]
    rfl

section Fields

variable {α : Type} {field : Field} {read : Json → Option α} {value : Option Json} {x : α}

theorem required_of_given (h : field.Given value) (hread : ∀ v, field.holds v → read v = some x)
    (husual : ¬ field.usual) : required read value = some x := by
  cases value with
  | none => exact absurd h husual
  | some v => exact hread v h

theorem usually_of_given {usual : α} (h : field.Given value)
    (hread : ∀ v, field.holds v → read v = some x) (husual : field.usual → x = usual) :
    usually usual read value = some x := by
  cases value with
  | none => rw [usually, husual h]
  | some v => exact hread v h

end Fields

/-- **A transceiver** is read from everything it may be written as. -/
theorem transceiver?_of_record {s : TransceiverSettings} {v : Json}
    (h : Record (transceiverFields s) v) : transceiver? v = some s := by
  obtain ⟨values, hvalues, hgiven⟩ := h.fields? (by simp [transceiverFields])
  rcases hgiven with _ | ⟨haddress, _ | _⟩
  have haddress := required_of_given haddress (fun _ => address?_of_writes) id
  simp only [transceiverFields, List.map_cons, List.map_nil] at hvalues
  simp only [transceiver?, hvalues, haddress, Option.bind_eq_bind, Option.bind_some]
  rfl

/-- **A peer** likewise. -/
theorem peer?_of_record {s : PeerSettings} {v : Json} (h : Record (peerFields s) v) :
    peer? v = some s := by
  obtain ⟨values, hvalues, hgiven⟩ := h.fields? (by simp [peerFields])
  rcases hgiven with _ | ⟨hchain, _ | ⟨haddress, _ | ⟨hdecimals, _ | ⟨hlimit, _ | _⟩⟩⟩⟩
  have hchain := required_of_given hchain (fun _ hv => hv ▸ chainId?_ofNat s.chain) id
  have haddress := required_of_given haddress (fun _ => address?_of_writes) id
  have hdecimals := required_of_given hdecimals (fun _ hv => hv ▸ byte?_ofNat s.tokenDecimals) id
  have hlimit := required_of_given hlimit (fun _ hv => hv ▸ amount?_ofNat s.inboundLimit) id
  simp only [peerFields, List.map_cons, List.map_nil] at hvalues
  simp only [peer?, hvalues, hchain, haddress, hdecimals, hlimit, Option.bind_eq_bind,
    Option.bind_some]
  rfl

/-- **The settings of a manager** likewise. -/
theorem manager?_of_record {s : ManagerSettings} {v : Json} (h : Record (managerFields s) v) :
    manager? v = some s := by
  obtain ⟨values, hvalues, hgiven⟩ := h.fields? (by simp [managerFields])
  rcases hgiven with _ | ⟨haddress, _ | ⟨hchain, _ | ⟨hmode, _ | ⟨hlimit, _ | ⟨hduration, _ |
    ⟨hpolicy, _ | _⟩⟩⟩⟩⟩⟩
  have haddress := required_of_given haddress (fun _ => address?_of_writes) id
  have hchain := required_of_given hchain (fun _ hv => hv ▸ chainId?_ofNat s.chain) id
  have hmode := required_of_given hmode (fun _ hv => hv ▸ mode?_ofString s.mode) id
  have hlimit := required_of_given hlimit (fun _ hv => hv ▸ amount?_ofNat s.limit) id
  have hduration := usually_of_given hduration
    (fun _ hv => hv ▸ timestamp?_ofInt s.rateLimitDuration) id
  have hpolicy := usually_of_given hpolicy (fun _ hv => hv ▸ dustPolicy?_ofString s.dustPolicy) id
  simp only [managerFields, List.map_cons, List.map_nil] at hvalues
  simp only [manager?, hvalues, haddress, hchain, hmode, hlimit, hduration, hpolicy,
    Option.bind_eq_bind, Option.bind_some]
  rfl

/-- **A whole deployment** is read from everything it may be written as. -/
theorem deployment?_of_record {s : DeploymentSettings} {v : Json}
    (h : Record (deploymentFields s) v) : deployment? v = some s := by
  obtain ⟨values, hvalues, hgiven⟩ := h.fields? (by simp [deploymentFields])
  rcases hgiven with _ | ⟨howner, _ | ⟨hmanager, _ | ⟨htransceivers, _ | ⟨hpeers, _ |
    ⟨hthreshold, _ | ⟨hpaused, _ | _⟩⟩⟩⟩⟩⟩
  have howner := required_of_given howner (fun _ => address?_of_writes) id
  have hmanager := required_of_given hmanager (fun _ => manager?_of_record) id
  have htransceivers := usually_of_given htransceivers
    (fun _ hv => listOf?_of_writes hv fun _ _ => transceiver?_of_record) id
  have hpeers := usually_of_given hpeers
    (fun _ hv => listOf?_of_writes hv fun _ _ => peer?_of_record) id
  have hthreshold := usually_of_given hthreshold
    (fun _ hv => hv ▸ threshold?_ofThreshold s.threshold) id
  have hpaused : usually false bool? _ = some s.paused :=
    usually_of_given hpaused (fun _ hv => hv ▸ rfl) id
  simp only [deploymentFields, List.map_cons, List.map_nil] at hvalues
  simp only [deployment?, hvalues, howner, hmanager, htransceivers, hpeers, hthreshold, hpaused,
    Option.bind_eq_bind, Option.bind_some]
  rfl

/-! ## §4 Writing -/

theorem writes_ofAddress (address : Address) : WritesAddress address (ofAddress address) :=
  ⟨_, rfl, Hex.map_toLower_encode _⟩

theorem writesList_map {α : Type} {holds : α → Json → Prop} {write : α → Json}
    (h : ∀ item, holds item (write item)) (items : List α) :
    WritesList holds items (.array (items.map write)) :=
  ⟨_, rfl, List.forall₂_map_right_iff.mpr (List.forall₂_same.mpr fun item _ => h item)⟩

theorem record_ofManager (s : ManagerSettings) : Record (managerFields s) (ofManager s) :=
  record_ofMembers (.cons ⟨rfl, writes_ofAddress _⟩ (.cons ⟨rfl, rfl⟩ (.cons ⟨rfl, rfl⟩
    (.cons ⟨rfl, rfl⟩ (.cons ⟨rfl, rfl⟩ (.cons ⟨rfl, rfl⟩ .nil))))))

theorem record_ofTransceiver (s : TransceiverSettings) :
    Record (transceiverFields s) (ofTransceiver s) :=
  record_ofMembers (.cons ⟨rfl, writes_ofAddress _⟩ .nil)

theorem record_ofPeer (s : PeerSettings) : Record (peerFields s) (ofPeer s) :=
  record_ofMembers (.cons ⟨rfl, rfl⟩ (.cons ⟨rfl, writes_ofAddress _⟩ (.cons ⟨rfl, rfl⟩
    (.cons ⟨rfl, rfl⟩ .nil))))

/-- **What is written** is one of the ways to write it. -/
theorem record_toJson (s : DeploymentSettings) : Record (deploymentFields s) s.toJson :=
  record_ofMembers (.cons ⟨rfl, writes_ofAddress _⟩ (.cons ⟨rfl, record_ofManager _⟩
    (.cons ⟨rfl, writesList_map record_ofTransceiver _⟩
    (.cons ⟨rfl, writesList_map record_ofPeer _⟩ (.cons ⟨rfl, rfl⟩ (.cons ⟨rfl, rfl⟩ .nil))))))

theorem numeric_ofThreshold (threshold : Option UInt8) : (ofThreshold threshold).Numeric := by
  cases threshold with
  | none => exact numeric_null
  | some t => exact numeric_ofNat _

theorem numeric_toJson (s : DeploymentSettings) : s.toJson.Numeric := by
  have haddress (address : Address) : (ofAddress address).Numeric := numeric_text _
  have hmanager : (ofManager s.manager).Numeric := by
    apply numeric_ofMembers
    simp [haddress, numeric_ofNat, numeric_ofInt, ofString, numeric_text]
  have htransceivers : (array (s.transceivers.map ofTransceiver)).Numeric := by
    apply numeric_array
    simp [ofTransceiver, numeric_ofMembers, haddress]
  have hpeers : (array (s.peers.map ofPeer)).Numeric := by
    apply numeric_array
    simp [ofPeer, numeric_ofMembers, haddress, numeric_ofNat]
  apply numeric_ofMembers
  simp [haddress, hmanager, htransceivers, hpeers, numeric_ofThreshold, numeric_bool]

end Settings

/-! ## §5 Every text -/

namespace DeploymentSettings

open Settings

/-- **Settings survive being written and read.** The text that settings are written as is read as
the same settings. So is every other text of a record with the same fields, that is, of an object

* whose members are in any order, as are those of the objects in it;
* whose addresses have digits of either case;
* in which fields that have their usual value may be missing;
* with other members of any names that are not known, which hold any values;

and it may be spelled in any way, with any blanks between the tokens. -/
theorem text_laws (s : DeploymentSettings) :
    parse? s.render = some s ∧
      ∀ (v : Json) (text : List Char), Record (deploymentFields s) v → Spaced v.toTokens text →
        parse? (String.ofList text) = some s := by
  have hread (v : Json) (text : List Char) (hv : Record (deploymentFields s) v)
      (htext : Spaced v.toTokens text) : parse? (String.ofList text) = some s := by
    rw [parse?, String.toList_ofList, parse?_of_spaced htext]
    exact deployment?_of_record hv
  refine ⟨?_, hread⟩
  have hblank : Blank [] := fun _ hc => nomatch hc
  exact hread s.toJson _ (record_toJson s) ((numeric_toJson s).spaced hblank)

end DeploymentSettings

namespace Sample

open Settings

/-- Settings in which most fields have their usual values. -/
def plain : DeploymentSettings where
  owner := Vector.replicate 32 0xab
  manager := ⟨Vector.replicate 32 1, ⟨1⟩, .burning, 5, 86400, .reject⟩
  transceivers := [⟨Vector.replicate 32 2⟩]
  peers := []
  threshold := none
  paused := true

/-- The members of the manager that are not left out. -/
def plainManager : List (Option (List Char) × Json) := [
  (some "address".toList, ofAddress plain.manager.address),
  (some "chain_id".toList, ofNat 1),
  (some "mode".toList, ofString "burning"),
  (some "limit".toList, ofNat 5),
  (some "dust_policy".toList, ofString "reject")]

/-- A member that no record knows, with a value that has no text in it. -/
def remark : Option (List Char) × Json :=
  (some "remark".toList, .array
    [.number ['-', '1', '.', '5', 'e', '3'], .text none, .object [(none, .null)]])

/-- The members of the settings that are not left out, and the digits of the owner in both cases. -/
def plainMembers : List (Option (List Char) × Json) := [
  (some "owner".toList, .text (some (List.replicate 32 ['a', 'B']).flatten)),
  (some "manager".toList, .object (plainManager ++ [remark]).reverse),
  (some "transceivers".toList, .array [ofTransceiver ⟨Vector.replicate 32 2⟩]),
  (some "paused".toList, .bool true)]

/-- The settings written backwards, and with a remark. -/
def rewritten : Json := .object (plainMembers ++ [remark]).reverse

theorem record_rewritten : Record (deploymentFields plain) rewritten := by
  have hmanager : Record (managerFields plain.manager)
      (.object (plainManager ++ [remark]).reverse) :=
    .intro (.keep (writes_ofAddress _) (.keep rfl (.keep rfl (.keep rfl (.drop rfl
      (.keep rfl .nil)))))) (by simp [remark, managerFields]) (List.reverse_perm _)
  have howner : WritesAddress plain.owner (.text (some (List.replicate 32 ['a', 'B']).flatten)) :=
    ⟨_, rfl, by decide⟩
  have htransceivers : WritesList (fun t => Record (transceiverFields t)) plain.transceivers
      (.array [ofTransceiver ⟨Vector.replicate 32 2⟩]) :=
    ⟨_, rfl, .cons (record_ofTransceiver _) .nil⟩
  exact .intro (.keep howner (.keep hmanager (.keep htransceivers (.drop rfl (.drop rfl
    (.keep rfl .nil)))))) (by simp [remark, deploymentFields]) (List.reverse_perm _)

theorem numeric_rewritten : rewritten.Numeric := by
  have hdigits (c : Char) (hc : c.isDigit = true) : Digits [c] :=
    ⟨List.cons_ne_nil _ _, List.forall_mem_singleton.mpr hc⟩
  have hnumber : Number ['-', '1', '.', '5', 'e', '3'] :=
    .intro (.inr rfl) (.digits (by decide) (hdigits '1' rfl)) (.digits (hdigits '5' rfl))
      (.digits (.inl rfl) (.inl rfl) (hdigits '3' rfl))
  have hremark : remark.2.Numeric := by
    apply numeric_array
    simp [numeric_number hnumber, numeric_text, numeric_object, numeric_null]
  have hmanager : (object (plainManager ++ [remark]).reverse).Numeric := by
    apply numeric_object
    simp [plainManager, hremark, ofAddress, ofString, numeric_text, numeric_ofNat]
  have htransceivers : (array [ofTransceiver ⟨Vector.replicate 32 2⟩]).Numeric := by
    apply numeric_array
    simp [ofTransceiver, numeric_ofMembers, ofAddress, numeric_text]
  have hmembers : ∀ m ∈ plainMembers ++ [remark], m.2.Numeric := by
    simp only [plainMembers, List.cons_append, List.nil_append, List.forall_mem_cons]
    exact ⟨numeric_text _, hmanager, htransceivers, numeric_bool _, hremark, List.forall_mem_nil _⟩
  exact numeric_object fun m hm => hmembers m (List.mem_reverse.mp hm)

/-- A line for each token. -/
def lines (v : Json) : List Char :=
  v.toTokens.flatMap fun token => ['\n', ' '] ++ token.spell

theorem rewritten_read :
    DeploymentSettings.parse? plain.render = some plain ∧
      Record (deploymentFields plain) rewritten ∧ Spaced rewritten.toTokens (lines rewritten) ∧
      DeploymentSettings.parse? (String.ofList (lines rewritten)) = some plain := by
  obtain ⟨hwritten, hread⟩ := DeploymentSettings.text_laws plain
  have hspaced : Spaced rewritten.toTokens (lines rewritten) :=
    numeric_rewritten.spaced (by simp [Blank, Lexer.isBlank])
  exact ⟨hwritten, record_rewritten, hspaced, hread rewritten _ record_rewritten hspaced⟩

end Sample

end CrossChain
