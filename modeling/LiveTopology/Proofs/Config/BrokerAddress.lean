import LiveTopology.Config.Basic
import LiveTopology.Proofs.Steps
import Mathlib.Data.List.TakeWhile

/-!
# What writes an address of the broker

An address is written as its host, a colon and its port. The colon is the first one of the text, so
a host has none, and the port is a decimal number of which leading zeros and one plus sign say
nothing. Every other text is refused for the first thing that is wrong with it, from left to right.
-/

namespace LiveTopology.BrokerAddress

/-- Decimal digits that write a number: there is at least one, and zeros may lead. -/
structure Numeral (digits : List Char) (n : Nat) : Prop where
  ne_nil : digits ≠ []
  isDigit : ∀ c ∈ digits, c.isDigit = true
  value : Nat.ofDigitChars 10 digits 0 = n

/-- What writes a port. -/
inductive PortText : List Char → UInt16 → Prop where
  | plain {digits : List Char} {port : UInt16} (h : Numeral digits port.toNat) :
      PortText digits port
  | signed {digits : List Char} {port : UInt16} (h : Numeral digits port.toNat) :
      PortText ('+' :: digits) port

/-- What follows the plus sign of a text, or the text if it has none. -/
def unsigned : List Char → List Char
  | '+' :: rest => rest
  | text => text

/-- The number that the leading digits of a text write. -/
def leadingValue (text : List Char) : Nat := Nat.ofDigitChars 10 (text.takeWhile Char.isDigit) 0

/-- What is wrong with a text that writes no port. Digits are looked at in order, so it does not
matter what follows those that are too many. -/
inductive PortFault : List Char → PortError → Prop where
  | empty : PortFault [] .empty
  | noDigits : PortFault ['+'] .invalidDigit
  | tooLarge {text : List Char} (h : 65536 ≤ leadingValue (unsigned text)) :
      PortFault text .tooLarge
  | invalidDigit {text : List Char} (hv : leadingValue (unsigned text) < 65536)
      (h : ∃ c ∈ unsigned text, c.isDigit = false) : PortFault text .invalidDigit

/-- What writes an address. -/
inductive WrittenAs (address : BrokerAddress) : String → Prop where
  | joined {port : String} (ne_empty : address.host ≠ "") (no_colon : ':' ∉ address.host.toList)
      (h : PortText port.toList address.port) : WrittenAs address (address.host ++ ":" ++ port)

/-- What is wrong with a text that writes no address. -/
inductive Fault : String → AddressError → Prop where
  | noColon {text : String} (h : ':' ∉ text.toList) : Fault text .noColon
  | emptyHost (port : String) : Fault (":" ++ port) .emptyHost
  | badPort {host port : String} {error : PortError} (ne_empty : host ≠ "")
      (no_colon : ':' ∉ host.toList) (h : PortFault port.toList error) :
      Fault (host ++ ":" ++ port) (.badPort error)

/-! ## Digits -/

/-- Digits are the characters from zero to nine. -/
theorem isDigit_iff {c : Char} : c.isDigit = true ↔ '0' ≤ c ∧ c ≤ '9' := by
  rw [Char.isDigit, Bool.and_eq_true, decide_eq_true_eq, decide_eq_true_eq]
  rfl

/-- Further digits do not lower the value of those before. -/
theorem le_ofDigitChars (digits : List Char) (value : Nat) :
    value ≤ Nat.ofDigitChars 10 digits value := by
  induction digits generalizing value with
  | nil => exact le_rfl
  | cons c rest ih =>
    have hc := ih (10 * value + (c.toNat - '0'.toNat))
    rw [Nat.ofDigitChars_cons]
    omega

/-- Digits are read as far as they go, unless their value becomes too large on the way. -/
theorem portDigits_eq {value : Nat} (h : value < 65536) (text : List Char) :
    portDigits value text =
      if 65536 ≤ Nat.ofDigitChars 10 (text.takeWhile Char.isDigit) value then .error .tooLarge
      else if text.all Char.isDigit then
        .ok (UInt16.ofNat (Nat.ofDigitChars 10 text value))
      else .error .invalidDigit := by
  induction text generalizing value with
  | nil =>
    have hn : ¬ 65536 ≤ Nat.ofDigitChars 10 [] value := by
      rw [Nat.ofDigitChars_nil]
      omega
    rw [List.takeWhile_nil, if_neg hn, if_pos List.all_nil]
    rfl
  | cons c rest ih =>
    by_cases hc : c.isDigit = true
    · have hall : (c :: rest).all Char.isDigit = rest.all Char.isDigit := by
        rw [List.all_cons, hc, Bool.true_and]
      have hcomm : value * 10 + (c.toNat - '0'.toNat) = 10 * value + (c.toNat - '0'.toNat) := by
        rw [Nat.mul_comm]
      rw [portDigits, if_pos (isDigit_iff.mp hc), List.takeWhile_cons_of_pos hc,
        Nat.ofDigitChars_cons, Nat.ofDigitChars_cons, hcomm, hall]
      by_cases hn : 10 * value + (c.toNat - '0'.toNat) < 65536
      · rw [if_pos hn]
        exact ih hn
      -- The reader stops here, and the digits that it leaves unread cannot lower the value.
      · have hle := le_ofDigitChars (rest.takeWhile Char.isDigit)
          (10 * value + (c.toNat - '0'.toNat))
        rw [if_neg hn, if_pos (by omega)]
    · have hn : ¬ 65536 ≤ Nat.ofDigitChars 10 [] value := by
        rw [Nat.ofDigitChars_nil]
        omega
      rw [portDigits, if_neg (fun hd => hc (isDigit_iff.mpr hd)), List.takeWhile_cons_of_neg hc,
        if_neg hn, if_neg (fun hall => hc (List.all_eq_true.mp hall c List.mem_cons_self))]

/-! ## Ports -/

/-- There is no sign before digits alone. -/
theorem unsigned_of_isDigit {text : List Char} (h : ∀ c ∈ text, c.isDigit = true) :
    unsigned text = text := by
  unfold unsigned
  split
  · exact absurd (h '+' List.mem_cons_self) (by decide)
  · rfl

/-- A port is read from what follows its sign. -/
theorem readPort_eq {text : List Char} (h : unsigned text ≠ []) :
    readPort text = portDigits 0 (unsigned text) := by
  unfold readPort
  split
  · exact absurd rfl h
  · rename_i rest
    have hr : rest.isEmpty = false := List.isEmpty_eq_false_iff.mpr h
    rw [hr]
    rfl
  · rename_i hs
    rw [unsigned]
    exact hs

/-- Nothing follows the sign of the empty text and of a plus sign alone. -/
theorem unsigned_eq_nil_iff {text : List Char} : unsigned text = [] ↔ text = [] ∨ text = ['+'] := by
  unfold unsigned
  split
  · simp
  · rename_i hs
    refine ⟨.inl, fun h => h.resolve_right ?_⟩
    rintro rfl
    exact hs [] rfl

/-- A text writes a port exactly if what follows its sign are digits of the port. -/
theorem portText_iff {text : List Char} {port : UInt16} :
    PortText text port ↔ Numeral (unsigned text) port.toNat := by
  constructor
  · intro h
    cases h with
    | plain h => rwa [unsigned_of_isDigit h.isDigit]
    | signed h => exact h
  · intro h
    unfold unsigned at h
    split at h
    · exact .signed h
    · exact .plain h

/-- A number below the limit is the port of the same value. -/
theorem toNat_ofNat_iff {n : Nat} (h : n < 65536) {port : UInt16} :
    UInt16.ofNat n = port ↔ n = port.toNat := by
  rw [← UInt16.toNat_inj, UInt16.toNat_ofNat', Nat.mod_eq_of_lt h]

/-- A port is read exactly from what writes it. -/
theorem readPort_eq_ok_iff {text : List Char} {port : UInt16} :
    readPort text = .ok port ↔ PortText text port := by
  rw [portText_iff]
  by_cases hu : unsigned text = []
  · have hn : ¬ Numeral (unsigned text) port.toNat := fun h => h.ne_nil hu
    rcases unsigned_eq_nil_iff.mp hu with rfl | rfl
    · exact iff_of_false (fun h => by cases h) hn
    · exact iff_of_false (fun h => by cases h) hn
  · rw [readPort_eq hu, portDigits_eq (by decide)]
    have hp := port.toNat_lt
    split_ifs with hl hd
    · refine iff_of_false (fun h => by cases h) fun h => ?_
      rw [List.takeWhile_eq_self_iff.mpr h.isDigit, h.value] at hl
      omega
    · have hd := List.all_eq_true.mp hd
      rw [List.takeWhile_eq_self_iff.mpr hd, not_le] at hl
      rw [Except.ok.injEq, toNat_ofNat_iff hl]
      exact ⟨fun h => ⟨hu, hd, h⟩, Numeral.value⟩
    · exact iff_of_false (fun h => by cases h) fun h => hd (List.all_eq_true.mpr h.isDigit)

/-- With no digits behind the sign there is one thing wrong, whatever the reader sees first. -/
theorem portFault_iff_of_nil {text : List Char} (h : unsigned text = []) {error : PortError} :
    PortFault text error ↔ readPort text = .error error := by
  have hv : ¬ 65536 ≤ leadingValue (unsigned text) := by
    rw [h]
    decide
  have hd : ¬ ∃ c ∈ unsigned text, c.isDigit = false := by
    rw [h]
    exact nofun
  constructor
  · intro hf
    cases hf with
    | empty => rfl
    | noDigits => rfl
    | tooLarge hl => exact absurd hl hv
    | invalidDigit _ hc => exact absurd hc hd
  · intro hr
    rcases unsigned_eq_nil_iff.mp h with rfl | rfl
    · cases hr
      exact .empty
    · cases hr
      exact .noDigits

/-- A port is refused exactly for what is wrong with its text. -/
theorem readPort_eq_error_iff {text : List Char} {error : PortError} :
    readPort text = .error error ↔ PortFault text error := by
  by_cases hu : unsigned text = []
  · exact (portFault_iff_of_nil hu).symm
  · rw [readPort_eq hu, portDigits_eq (by decide)]
    constructor
    · intro h
      split_ifs at h with hl hd
      · cases h
        exact .tooLarge hl
      · cases h
        rw [Bool.not_eq_true] at hd
        obtain ⟨c, hc, hn⟩ := List.all_eq_false.mp hd
        exact .invalidDigit (not_le.mp hl) ⟨c, hc, Bool.not_eq_true _ ▸ hn⟩
    · intro h
      cases h with
      | empty => exact absurd rfl hu
      | noDigits => exact absurd rfl hu
      | tooLarge hl => exact if_pos hl
      | invalidDigit hl hc =>
        obtain ⟨c, hm, hn⟩ := hc
        have hd : ¬ (unsigned text).all Char.isDigit = true := fun hall => by
          rw [List.all_eq_true.mp hall c hm] at hn
          cases hn
        rw [leadingValue] at hl
        rw [if_neg (not_le.mpr hl), if_neg hd]

/-! ## Addresses -/

/-- The characters of an address are those of the host, a colon and those of the port. -/
theorem toList_joined (host port : String) :
    (host ++ ":" ++ port).toList = host.toList ++ ':' :: port.toList := by
  rw [String.toList_append, String.toList_append, List.append_assoc]
  rfl

/-- A text without a colon is refused for that. -/
theorem parse_of_no_colon {text : String} (h : ':' ∉ text.toList) :
    parse text = .error .noColon := by
  have hp : ∀ c ∈ text.toList, decide (c ≠ ':') = true := fun c hc =>
    decide_eq_true fun he => h (he ▸ hc)
  rw [parse, List.dropWhile_eq_nil_iff.mpr hp]

/-- The host ends at the first colon, and the port is all that follows. -/
theorem parse_joined {host : String} (h : ':' ∉ host.toList) (port : String) :
    parse (host ++ ":" ++ port) =
      if host = "" then .error .emptyHost
      else ((readPort port.toList).map fun number => ⟨host, number⟩).mapError .badPort := by
  have hp : ∀ c ∈ host.toList, decide (c ≠ ':') = true := fun c hc =>
    decide_eq_true fun he => h (he ▸ hc)
  have hs : List.takeWhile (fun c => decide (c ≠ ':')) (':' :: port.toList) = [] := rfl
  have hd : List.dropWhile (fun c => decide (c ≠ ':')) (':' :: port.toList) = ':' :: port.toList :=
    rfl
  rw [parse, toList_joined, List.takeWhile_append_of_pos hp,
    List.dropWhile_append_of_pos hp, hs, hd, List.append_nil, String.ofList_toList]
  by_cases he : host = ""
  · subst he
    rfl
  · have hn : host.toList.isEmpty = false := by
      rw [List.isEmpty_eq_false_iff]
      exact fun hl => he (String.toList_eq_nil_iff.mp hl)
    rw [hn, if_neg he]
    dsimp only [Bool.false_eq_true, if_false]
    cases readPort port.toList <;> rfl

/-- A text with a colon is cut at the first one. -/
theorem exists_joined {text : String} (h : ':' ∈ text.toList) :
    ∃ host port : String, ':' ∉ host.toList ∧ text = host ++ ":" ++ port := by
  obtain ⟨before, after, ht, hn⟩ := List.eq_append_cons_of_mem h
  refine ⟨String.ofList before, String.ofList after, by rwa [String.toList_ofList], ?_⟩
  rw [← String.toList_inj, toList_joined, String.toList_ofList, String.toList_ofList, ht]

/-- An address is read exactly from what writes it. -/
theorem parse_eq_ok_iff {text : String} {address : BrokerAddress} :
    parse text = .ok address ↔ address.WrittenAs text := by
  constructor
  · intro h
    by_cases hc : ':' ∈ text.toList
    · obtain ⟨host, port, hn, rfl⟩ := exists_joined hc
      rw [parse_joined hn] at h
      split_ifs at h with he
      cases hr : readPort port.toList with
      | error error => rw [hr] at h; cases h
      | ok number =>
        rw [hr] at h
        cases h
        exact .joined he hn (readPort_eq_ok_iff.mp hr)
    · rw [parse_of_no_colon hc] at h
      cases h
  · intro h
    cases h with
    | joined he hn hp =>
      rw [parse_joined hn, if_neg he, readPort_eq_ok_iff.mpr hp]
      rfl

/-- A text is refused exactly for what is wrong with it. -/
theorem parse_eq_error_iff {text : String} {error : AddressError} :
    parse text = .error error ↔ Fault text error := by
  constructor
  · intro h
    by_cases hc : ':' ∈ text.toList
    · obtain ⟨host, port, hn, rfl⟩ := exists_joined hc
      rw [parse_joined hn] at h
      split_ifs at h with he
      · cases h
        rw [he]
        exact .emptyHost port
      · cases hr : readPort port.toList with
        | error cause =>
          rw [hr] at h
          cases h
          exact .badPort he hn (readPort_eq_error_iff.mp hr)
        | ok number => rw [hr] at h; cases h
    · rw [parse_of_no_colon hc] at h
      cases h
      exact .noColon hc
  · intro h
    cases h with
    | noColon hc => exact parse_of_no_colon hc
    | emptyHost port => exact parse_joined (by simp : ':' ∉ "".toList) port
    | badPort he hn hf =>
      rw [parse_joined hn, if_neg he, readPort_eq_error_iff.mpr hf]
      rfl

/-- The digits of a number write it. -/
theorem numeral_toDigits (n : Nat) : Numeral (Nat.toDigits 10 n) n where
  ne_nil := Nat.toDigits_ne_nil
  isDigit _ hc := Nat.isDigit_of_mem_toDigits (by decide) (by decide) hc
  value := Nat.ofDigitChars_ten_toDigits

/-- The text of an address writes it, unless the host is empty or would end early. -/
theorem writtenAs_text {address : BrokerAddress} (ne_empty : address.host ≠ "")
    (no_colon : ':' ∉ address.host.toList) : address.WrittenAs address.text := by
  refine .joined ne_empty no_colon (.plain ?_)
  have ht : (toString address.port.toNat).toList = Nat.toDigits 10 address.port.toNat :=
    Nat.toList_repr
  rw [ht]
  exact numeral_toDigits _

end LiveTopology.BrokerAddress

namespace LiveTopology.MqttSection

/-- The broker is at the address that the setting denotes. -/
theorem broker_eq_ok_iff {s : MqttSection} {address : BrokerAddress} :
    s.broker = .ok address ↔ BrokerAddress.parse s.serverAddress = .ok address := by
  rw [broker]
  exact mapError_eq_ok_iff

/-- A setting that denotes no address is refused together with its text. -/
theorem broker_eq_error_iff {s : MqttSection} {error : ConfigError} :
    s.broker = .error error ↔ ∃ fault, BrokerAddress.parse s.serverAddress = .error fault ∧
      error = .brokerAddress s.serverAddress fault := by
  rw [broker]
  exact mapError_eq_error_iff

/-- The broker is at an address exactly if the setting is a host without colons, a colon and a port.
Every other setting is refused, with the address in the wording, for the first of three things: it
has no colon, its host is empty, or its port is none. The text of an address is a setting for it. -/
theorem broker_exact (s : MqttSection) :
    (∀ address, s.broker = .ok address ↔ address.WrittenAs s.serverAddress) ∧
      (∀ error, s.broker = .error error ↔
        ∃ fault, BrokerAddress.Fault s.serverAddress fault ∧
          error = .brokerAddress s.serverAddress fault ∧ error.context = "mqtt.server_address" ∧
          error.detail = "'" ++ s.serverAddress ++ "': " ++ fault.message) ∧
      ∀ address : BrokerAddress, address.host ≠ "" → ':' ∉ address.host.toList →
        broker { s with serverAddress := address.text } = .ok address := by
  refine ⟨fun address => ?_, fun error => ?_, fun address hn hc => ?_⟩
  · rw [broker_eq_ok_iff, BrokerAddress.parse_eq_ok_iff]
  · constructor
    · intro h
      obtain ⟨fault, hf, rfl⟩ := broker_eq_error_iff.mp h
      exact ⟨fault, BrokerAddress.parse_eq_error_iff.mp hf, rfl, rfl, rfl⟩
    · rintro ⟨fault, hf, rfl, -, -⟩
      exact broker_eq_error_iff.mpr ⟨fault, BrokerAddress.parse_eq_error_iff.mpr hf, rfl⟩
  · rw [broker_eq_ok_iff, BrokerAddress.parse_eq_ok_iff]
    exact BrokerAddress.writtenAs_text hn hc

/-- The last port is written without a plus sign and read again. -/
theorem broker_of_last_port :
    "broker.local" ≠ "" ∧ ':' ∉ "broker.local".toList ∧
      broker { standard with serverAddress := (⟨"broker.local", 65535⟩ : BrokerAddress).text } =
        .ok ⟨"broker.local", 65535⟩ :=
  ⟨by decide, by decide,
    (broker_exact standard).2.2 ⟨"broker.local", 65535⟩ (by decide) (by decide)⟩

/-- Zeros and a plus sign may lead; the first colon counts; too many digits hide what follows. -/
example :
    BrokerAddress.parse "h:+0001883" = .ok ⟨"h", 1883⟩ ∧
      BrokerAddress.parse "::1:1883" = .error .emptyHost ∧
      BrokerAddress.parse "fe80::1" = .error (.badPort .invalidDigit) ∧
      BrokerAddress.parse "h:65536x" = .error (.badPort .tooLarge) :=
  ⟨rfl, rfl, rfl, rfl⟩

end LiveTopology.MqttSection
