import LiveTopology.Proofs.Json.Values
import LiveTopology.Relay

/-!
# What the text of a command says

A command that is read from a text is written there: as an object in which its action and its
strings stand once each under their names, or as an array of nothing else. The text is read in two
passes, first its action with all the rest, then the strings that the action asks for, so there is a
law for each pass.
-/

namespace LiveTopology.RelayCommand

open Json

/-- The word of an action. -/
def Action.word : Action → String
  | .publish => "publish"
  | .subscribe => "subscribe"
  | .unsubscribeAll => "unsubscribe_all"

/-- Only the word of an action is read as the action. -/
theorem Action.word_of_ofWord? {word : String} {action : Action}
    (h : Action.ofWord? word = some action) : word = action.word := by
  unfold Action.ofWord? at h
  split_ifs at h with hp hs hu
  · cases h
    exact hp
  · cases h
    exact hs
  · cases h
    exact hu

/-- The members that make up a command. What stands under other names has no part in it. -/
inductive OfMembers (pairs : List (String × Value)) : RelayCommand → Prop where
  | publish {topic message : String} (ha : Fields.under "action" pairs = [.string "publish"])
      (ht : Fields.under "topic" pairs = [.string topic])
      (hm : Fields.under "message" pairs = [.string message]) :
      OfMembers pairs (.publish topic message)
  | subscribe {topic : String} (ha : Fields.under "action" pairs = [.string "subscribe"])
      (ht : Fields.under "topic" pairs = [.string topic]) : OfMembers pairs (.subscribe topic)
  | unsubscribeAll (ha : Fields.under "action" pairs = [.string "unsubscribe_all"]) :
      OfMembers pairs .unsubscribeAll

/-- The items that make up a command. -/
inductive OfItems : List Value → RelayCommand → Prop where
  | publish (topic message : String) :
      OfItems [.string "publish", .string topic, .string message] (.publish topic message)
  | subscribe (topic : String) :
      OfItems [.string "subscribe", .string topic] (.subscribe topic)
  | unsubscribeAll : OfItems [.string "unsubscribe_all"] .unsubscribeAll

/-- A command as it is written in a text. -/
inductive Spelled (text : List UInt8) (command : RelayCommand) : Prop where
  | object {pairs : List (String × Value)} (hw : WrittenObject text pairs)
      (hc : OfMembers pairs command) : Spelled text command
  | array {items : List Value} (hp : Json.parse text = .ok (.array items))
      (hc : OfItems items command) : Spelled text command

/-! ## The first pass -/

/-- The action and the other members that have been found. -/
abbrev Found : Type := Option Action × List (String × Value)

/-- What a member adds to what has been found: the action comes once, as its word. -/
def addMember (found : Found) (pair : String × Value) : Option Found :=
  if pair.1 = "action" then
    match found.1, pair.2 with
    | none, .string word => (Action.ofWord? word).map fun action => (some action, found.2)
    | _, _ => none
  else some (found.1, found.2 ++ [pair])

/-- An action that is read is written as its word, with white space before it. -/
theorem readAction_eq_ok {input rest : List UInt8} {action : Action}
    (h : readAction input = .ok (action, rest)) :
    ∃ before core, Blank before ∧ StringText core action.word ∧ input = before ++ core ++ rest := by
  obtain ⟨⟨word, after⟩, hs, h⟩ := exists_of_bind_eq_ok h
  dsimp only at h
  split at h
  · rename_i found hw
    cases h
    obtain ⟨before, core, hb, hc, rfl⟩ := typedString_eq_ok_iff.mp hs
    exact ⟨before, core, hb, Action.word_of_ofWord? hw ▸ hc, rfl⟩
  · cases h

/-- The word of an action is read as it. -/
theorem ofWord?_word (action : Action) : Action.ofWord? action.word = some action := by
  cases action <;> rfl

/-- The members of a command are gathered one by one, and none is taken that is not written. -/
theorem gathersOnly_commandMember (depth : Nat) :
    GathersOnly (commandMember depth) (Denotes depth) addMember := by
  intro input rest key found next h
  rw [commandMember] at h
  split_ifs at h with hk hf
  · obtain ⟨behind, hcolon, h⟩ := exists_of_bind_eq_ok h
    obtain ⟨⟨action, after⟩, ha, h⟩ := exists_of_bind_eq_ok h
    cases h
    obtain ⟨gap, hg, rfl⟩ := readColon_eq_ok_iff.mp hcolon
    obtain ⟨before, core, hb, hc, rfl⟩ := readAction_eq_ok ha
    refine ⟨gap, before, core, _, hg, hb, denotes_string_iff.mpr hc, ?_, rfl⟩
    rw [addMember, if_pos hk, Option.not_isSome_iff_eq_none.mp hf]
    dsimp only
    rw [ofWord?_word]
    rfl
  · obtain ⟨behind, hcolon, h⟩ := exists_of_bind_eq_ok h
    obtain ⟨⟨v, after⟩, hv, h⟩ := exists_of_bind_eq_ok h
    cases h
    obtain ⟨gap, hg, rfl⟩ := readColon_eq_ok_iff.mp hcolon
    obtain ⟨before, core, hb, hc, rfl⟩ := readsOnly_value depth hv
    exact ⟨gap, before, core, v, hg, hb, hc, by rw [addMember, if_neg hk], rfl⟩

/-- The values that a known action stands for. -/
def words (known : Option Action) : List Value := known.toList.map fun action => .string action.word

/-- A member that is added is the action that was not known yet, or stands behind the others. -/
theorem addMember_eq_some {found next : Found} {pair : String × Value}
    (h : addMember found pair = some next) :
    words next.1 = words found.1 ++ Fields.under "action" [pair] ∧
      next.2 = found.2 ++ Fields.erase "action" [pair] := by
  rw [Fields.under_singleton]
  rw [addMember] at h
  split_ifs at h ⊢ with hk
  · split at h
    · rename_i word hf hv
      obtain ⟨action, ha, rfl⟩ := Option.map_eq_some_iff.mp h
      rw [hf, hv, Action.word_of_ofWord? ha]
      refine ⟨rfl, ?_⟩
      simp [Fields.erase, hk]
    · cases h
  · cases h
    simp [Fields.erase, hk]

/-- Of members that were all added, those named `action` give the action, and the others stand in
order. -/
theorem foldlM_addMember {pairs : List (String × Value)} {start final : Found}
    (h : pairs.foldlM addMember start = some final) :
    words final.1 = words start.1 ++ Fields.under "action" pairs ∧
      final.2 = start.2 ++ Fields.erase "action" pairs := by
  induction pairs generalizing start with
  | nil =>
    cases h
    exact ⟨(List.append_nil _).symm, (List.append_nil _).symm⟩
  | cons pair rest ih =>
    rw [List.foldlM_cons] at h
    obtain ⟨next, hn, hr⟩ := Option.bind_eq_some_iff.mp h
    obtain ⟨hword, hother⟩ := addMember_eq_some hn
    obtain ⟨hwords, hothers⟩ := ih hr
    have hcons : Fields.under "action" (pair :: rest) =
        Fields.under "action" [pair] ++ Fields.under "action" rest :=
      Fields.under_append "action" [pair] rest
    have herase : Fields.erase "action" (pair :: rest) =
        Fields.erase "action" [pair] ++ Fields.erase "action" rest :=
      List.filter_append [pair] rest
    rw [hwords, hword, hothers, hother, hcons, herase]
    simp only [List.append_assoc, and_self]

/-- The parts of a command as they are written. -/
inductive PartsText (depth : Nat) : List UInt8 → Parts → Prop where
  | named {text : List UInt8} {pairs : List (String × Value)} {action : Action}
      (ho : ObjectText (Denotes depth) text pairs)
      (ha : Fields.under "action" pairs = [.string action.word]) :
      PartsText depth text (.named action (Fields.erase "action" pairs))
  | listed {text : List UInt8} {action : Action} {arguments : List Value}
      (ha : ArrayText (Denotes depth) text (.string action.word :: arguments)) :
      PartsText depth text (.listed action arguments)

/-- What is read behind an opening brace is the inside of an object with one action. -/
theorem readNamed_eq_ok {depth : Nat} {input rest : List UInt8} {parts : Parts}
    (h : readNamed depth input = .ok (parts, rest)) :
    ∃ inside, PartsText depth (Byte.openBrace :: inside ++ [Byte.closeBrace]) parts ∧
      input = inside ++ Byte.closeBrace :: rest := by
  obtain ⟨inside, pairs, ⟨known, fields⟩, hl, hs, hf, rfl⟩ :=
    listing_of_members (gathersOnly_commandMember depth) h
  obtain ⟨hw, ho⟩ := foldlM_addMember hs
  cases known with
  | none => cases hf
  | some action =>
    cases hf
    refine ⟨inside, ?_, rfl⟩
    change fields = [] ++ Fields.erase "action" pairs at ho
    rw [ho]
    exact .named (.braced hl) hw.symm

/-- What is read behind an opening bracket is the inside of an array with the action in front. -/
theorem readListed_eq_ok {depth : Nat} {input rest : List UInt8} {parts : Parts}
    (h : readListed depth input = .ok (parts, rest)) :
    ∃ inside, PartsText depth (Byte.openBracket :: inside ++ [Byte.closeBracket]) parts ∧
      input = inside ++ Byte.closeBracket :: rest := by
  rw [readListed] at h
  split at h
  · cases h
  · rename_i b tail hs
    obtain ⟨-, gap, hg, rfl⟩ := exists_blank_of_skipSpace hs
    split_ifs at h
    obtain ⟨⟨action, after⟩, ha, h⟩ := exists_of_bind_eq_ok h
    obtain ⟨⟨arguments, behind⟩, hr, h⟩ := exists_of_bind_eq_ok h
    cases h
    obtain ⟨before, core, hb, hc, hi⟩ := readAction_eq_ok ha
    obtain ⟨inside, hrest, rfl⟩ := remaining_of_readItems (readsOnly_value depth) hr
    refine ⟨gap ++ before ++ core ++ inside, .listed (.bracketed ?_), ?_⟩
    · exact listing_iff_remaining.mpr
        (.part (.first (hg.append hb)) (denotes_string_iff.mpr hc) hrest)
    · rw [hi]
      simp only [List.append_assoc]

/-- Nothing but texts of parts is read as the parts of a command. -/
theorem readsOnly_readParts (depth : Nat) :
    ReadsOnly (readParts (depth + 1)) (PartsText depth) := by
  intro input rest parts h
  rw [readParts] at h
  split at h
  · cases h
  · rename_i b tail hs
    obtain ⟨-, before, hb, rfl⟩ := exists_blank_of_skipSpace hs
    split at h
    · rename_i ha
      obtain ⟨inside, hp, rfl⟩ := readListed_eq_ok h
      exact ⟨before, _, hb, hp, by rw [ha]; simp⟩
    · obtain ⟨gap, behind, hg, hi, h⟩ := exists_brace_of_typedObject h
      obtain ⟨inside, hp, rfl⟩ := readNamed_eq_ok h
      exact ⟨before ++ gap, _, hb.append hg, hp, by rw [hi]; simp⟩

/-! ## The second pass -/

/-- Only a string is taken as a string. -/
theorem stringPart_eq_ok {v : Value} {text : String} (h : stringPart v = .ok text) :
    v = .string text := by
  cases v <;> cases h
  rfl

/-- Nothing is left where no further argument is allowed. -/
theorem eq_nil_of_noFurther {count : Nat} {rest : List Value} (h : noFurther count rest = .ok ()) :
    rest = [] := by
  cases rest with
  | nil => rfl
  | cons _ _ => cases h

/-- Strings are gathered as they are written, and each name gives one at most. -/
theorem namedParts_eq_ok {names : List String} {fields : List (String × Value)}
    {found final : List (String × String)} (h : namedParts names fields found = .ok final)
    {name : String} (hn : name ∈ names) (hone : (Fields.under name found).length ≤ 1) :
    (Fields.under name final).map .string =
        (Fields.under name found).map .string ++ Fields.under name fields ∧
      (Fields.under name final).length ≤ 1 := by
  induction fields generalizing found with
  | nil =>
    cases h
    exact ⟨(List.append_nil _).symm, hone⟩
  | cons field rest ih =>
    obtain ⟨other, v⟩ := field
    rw [namedParts] at h
    split_ifs at h with hk hd
    · obtain ⟨text, ht, h⟩ := exists_of_bind_eq_ok h
      obtain rfl := stringPart_eq_ok ht
      -- A string is only added under a name that has none, which keeps the bound.
      have hadd : (Fields.under name (found ++ [(other, text)])).length ≤ 1 := by
        rw [Fields.under_append, Fields.under_singleton]
        split_ifs with he
        · have hnil : Fields.under name found = [] := Fields.under_eq_nil_iff.mpr fun part hp hpn =>
            hd (List.any_eq_true.mpr ⟨part, hp, decide_eq_true (hpn.trans he.symm)⟩)
          rw [hnil]
          exact le_rfl
        · rw [List.append_nil]
          exact hone
      obtain ⟨hs, hl⟩ := ih h hadd
      refine ⟨?_, hl⟩
      rw [hs, Fields.under_append, List.map_append, Fields.under_singleton, Fields.under_cons,
        List.append_assoc]
      split_ifs <;> rfl
    · have he : other ≠ name := by
        rintro rfl
        exact hk (List.contains_iff_mem.mpr hn)
      rw [Fields.under_cons, if_neg he]
      exact ih h hone

/-- A required part that is there stands under its name. -/
theorem mem_under_of_requiredPart {name text : String} {found : List (String × String)}
    (h : requiredPart name found = .ok text) : text ∈ Fields.under name found := by
  rw [requiredPart] at h
  split at h
  · rename_i part hf
    cases h
    have hn := List.find?_some hf
    exact List.mem_map_of_mem (List.mem_filter.mpr ⟨List.mem_of_find?_eq_some hf, hn⟩)
  · cases h

/-- A part that is required and found is the one string under its name. -/
theorem under_of_requiredPart {names : List String} {fields : List (String × Value)}
    {found : List (String × String)} (hf : namedParts names fields [] = .ok found)
    {name text : String} (hn : name ∈ names) (hr : requiredPart name found = .ok text) :
    Fields.under name fields = [.string text] := by
  obtain ⟨hs, hl⟩ := namedParts_eq_ok hf hn (Nat.zero_le 1)
  have hm := mem_under_of_requiredPart hr
  obtain ⟨one, ho⟩ := List.length_eq_one_iff.mp (le_antisymm hl (List.length_pos_of_mem hm))
  rw [ho, List.mem_singleton] at hm
  rw [ho, ← hm] at hs
  exact hs.symm

/-- A command that is made of named parts has its strings among the members. -/
theorem ofMembers_of_ofParts {pairs : List (String × Value)} {action : Action}
    (ha : Fields.under "action" pairs = [.string action.word]) {command : RelayCommand}
    (h : ofParts (.named action (Fields.erase "action" pairs)) = .ok command) :
    OfMembers pairs command := by
  cases action with
  | publish =>
    obtain ⟨found, hf, h⟩ := exists_of_bind_eq_ok h
    obtain ⟨topic, htopic, h⟩ := exists_of_bind_eq_ok h
    obtain ⟨message, hmessage, h⟩ := exists_of_bind_eq_ok h
    cases h
    have ht := under_of_requiredPart hf (by decide) htopic
    have hm := under_of_requiredPart hf (by decide) hmessage
    rw [Fields.under_erase (by decide)] at ht hm
    exact .publish ha ht hm
  | subscribe =>
    obtain ⟨found, hf, h⟩ := exists_of_bind_eq_ok h
    obtain ⟨topic, htopic, h⟩ := exists_of_bind_eq_ok h
    cases h
    have ht := under_of_requiredPart hf (by decide) htopic
    rw [Fields.under_erase (by decide)] at ht
    exact .subscribe ha ht
  | unsubscribeAll =>
    cases h
    exact .unsubscribeAll ha

/-- A command that is made of listed parts has its strings as the items, and no others. -/
theorem ofItems_of_ofParts {action : Action} {arguments : List Value} {command : RelayCommand}
    (h : ofParts (.listed action arguments) = .ok command) :
    OfItems (.string action.word :: arguments) command := by
  cases action with
  | publish =>
    obtain _ | ⟨first, _ | ⟨second, rest⟩⟩ := arguments
    · cases h
    · obtain ⟨topic, -, h⟩ := exists_of_bind_eq_ok h
      cases h
    · obtain ⟨topic, ht, h⟩ := exists_of_bind_eq_ok h
      obtain ⟨message, hm, h⟩ := exists_of_bind_eq_ok h
      obtain ⟨⟨⟩, hr, h⟩ := exists_of_bind_eq_ok h
      cases h
      rw [stringPart_eq_ok ht, stringPart_eq_ok hm, eq_nil_of_noFurther hr]
      exact .publish topic message
  | subscribe =>
    obtain _ | ⟨first, rest⟩ := arguments
    · cases h
    · obtain ⟨topic, ht, h⟩ := exists_of_bind_eq_ok h
      obtain ⟨⟨⟩, hr, h⟩ := exists_of_bind_eq_ok h
      cases h
      rw [stringPart_eq_ok ht, eq_nil_of_noFurther hr]
      exact .subscribe topic
  | unsubscribeAll =>
    obtain ⟨⟨⟩, hr, h⟩ := exists_of_bind_eq_ok h
    cases h
    rw [eq_nil_of_noFurther hr]
    exact .unsubscribeAll

/-! ## Both passes -/

/-- A command is read exactly if the text as a whole gives parts and these make up the command. -/
theorem parse_eq_ok_iff {text : String} {command : RelayCommand} :
    parse text = .ok command ↔
      ∃ parts, document (readParts depthLimit) (Text.bytes text) = .ok parts ∧
        ofParts parts = .ok command := by
  rw [parse, mapError_eq_ok_iff]
  exact documentWith_eq_ok_iff_document

/-- A text that is no command is malformed, whatever is wrong with it. -/
theorem exists_malformed {text : String} {error : RelayError} (h : parse text = .error error) :
    ∃ cause, error = .malformed cause := by
  rw [parse] at h
  obtain ⟨cause, -, rfl⟩ := mapError_eq_error_iff.mp h
  exact ⟨cause, rfl⟩

/-- What is wrong with the parts of a command is reported without a place, and before anything that
follows them in the text. -/
theorem parse_eq_error_of_ofParts {text : String} {parts : Parts} {rest : List UInt8} {cause : Cause}
    (hr : readParts depthLimit (Text.bytes text) = .ok (parts, rest))
    (hc : ofParts parts = .error cause) : parse text = .error (.malformed ⟨cause, none⟩) := by
  rw [parse, documentWith, mapError_eq_ok_iff.mpr hr, ok_bind]
  dsimp only
  rw [hc]
  rfl

/-- A missing field is reported although the text goes on behind the command. -/
example :
    (parse "\x7b\"action\":\"publish\"\x7d x").mapError RelayError.message =
      .error "malformed command: missing field `topic`" :=
  rfl

/-- A command that is read from a text is written there. -/
theorem spelled_of_parse {text : String} {command : RelayCommand} (h : parse text = .ok command) :
    Spelled (Text.bytes text) command := by
  obtain ⟨parts, hd, hc⟩ := parse_eq_ok_iff.mp h
  have hp := padded_of_document (readsOnly_readParts (depthLimit - 1)) hd
  generalize Text.bytes text = bytes at hp ⊢
  cases hp with
  | around hb ht ha =>
    cases ht with
    | named ho haction => exact .object (.around hb ho ha) (ofMembers_of_ofParts haction hc)
    | listed hl =>
      exact .array (Json.parse_eq_ok_iff.mpr (.around hb (.array hl) ha)) (ofItems_of_ofParts hc)

end LiveTopology.RelayCommand
