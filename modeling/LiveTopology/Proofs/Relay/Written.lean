import LiveTopology.Proofs.Relay

/-!
# Every written command is read

The converse of what `Proofs.Relay` says: a text in which a command is written, as an object or as
an array, is read as that command. The members of an object may come in any order with any others
between them, so what is carried through both passes is only what stands under the names of the
command.
-/

namespace LiveTopology.RelayCommand

open Json

/-! ## The first pass -/

/-- The word of an action is read as it, whatever follows. -/
theorem readAction_append {before core : List UInt8} {action : Action} (hb : Blank before)
    (hc : StringText core action.word) (rest : List UInt8) :
    readAction (before ++ core ++ rest) = .ok (action, rest) := by
  have hs : typedString "variant identifier" (before ++ core ++ rest) = .ok (action.word, rest) :=
    typedString_eq_ok_iff.mpr ⟨before, core, hb, hc, rfl⟩
  rw [readAction, hs, ok_bind]
  dsimp only
  rw [ofWord?_word]
  rfl

/-- The members of a command are gathered one by one as they are written. -/
theorem gathers_commandMember (depth : Nat) :
    Gathers (commandMember depth) (Denotes depth) addMember := by
  intro gap before core rest key v found next hg hb hc he hs
  have hcolon := readColon_eq_ok_iff.mpr
    ⟨gap, hg, (rfl : gap ++ Byte.colon :: (before ++ core ++ rest) = _)⟩
  rw [addMember] at hs
  rw [commandMember]
  split_ifs at hs with hk
  · rw [if_pos hk]
    split at hs
    · rename_i word hf hv
      obtain ⟨action, ha, rfl⟩ := Option.map_eq_some_iff.mp hs
      dsimp only at hv
      rw [hv, Action.word_of_ofWord? ha] at hc
      rw [hf, if_neg (by decide), hcolon, ok_bind,
        readAction_append hb (denotes_string_iff.mp hc), ok_bind]
      rfl
    · cases hs
  · cases hs
    rw [if_neg hk, hcolon, ok_bind, reads_value depth hb hc he]
    rfl

/-- The one value that a known action stands for tells the action. -/
theorem words_eq_singleton {known : Option Action} {action : Action}
    (h : words known = [.string action.word]) : known = some action := by
  cases known with
  | none => cases h
  | some other =>
    have hw : other.word = action.word := by
      have hv := List.cons.inj h
      exact Value.string.inj hv.1
    rw [← ofWord?_word other, hw, ofWord?_word]

/-- Members under which the action stands once are gathered, whatever the others are. -/
theorem foldlM_addMember_of_word (known : Option Action) (fields : List (String × Value))
    {pairs : List (String × Value)} {action : Action}
    (h : words known ++ Fields.under "action" pairs = [.string action.word]) :
    pairs.foldlM addMember (known, fields) =
      some (some action, fields ++ Fields.erase "action" pairs) := by
  induction pairs generalizing known fields with
  | nil =>
    rw [Fields.under_nil, List.append_nil] at h
    rw [words_eq_singleton h, List.foldlM_nil]
    exact congrArg _ (congrArg _ (List.append_nil fields).symm)
  | cons pair rest ih =>
    rw [Fields.under_cons] at h
    rw [List.foldlM_cons, addMember]
    split_ifs at h ⊢ with hk
    · have herase : Fields.erase "action" (pair :: rest) = Fields.erase "action" rest :=
        List.filter_cons_of_neg (by simp [hk])
      cases known with
      | some other => simp [words] at h
      | none =>
        -- The action has not been met before, and is not met again.
        obtain ⟨hv, hnone⟩ := List.cons.inj h
        have hlater : words (some action) ++ Fields.under "action" rest =
            [.string action.word] := by
          rw [hnone]
          rfl
        rw [hv, herase, ← ih _ _ hlater]
        dsimp only
        rw [ofWord?_word]
        rfl
    · have herase : Fields.erase "action" (pair :: rest) = pair :: Fields.erase "action" rest :=
        List.filter_cons_of_pos (decide_eq_true hk)
      have hnext := ih known (fields ++ [pair]) h
      rw [List.append_assoc] at hnext
      rw [herase]
      exact hnext

/-- The inside of an array with an action in front is read up to its closing bracket. -/
theorem readListed_append {depth : Nat} {inside : List UInt8} {action : Action}
    {arguments : List Value}
    (hl : Listing (Denotes depth) inside (.string action.word :: arguments)) (rest : List UInt8) :
    readListed depth (inside ++ Byte.closeBracket :: rest) =
      .ok (.listed action arguments, rest) := by
  cases listing_iff_remaining.mp hl with
  | part hlead hp hr =>
    rename_i lead core after
    cases hlead with
    | first hg =>
      have hs := denotes_string_iff.mp hp
      obtain ⟨written, rfl⟩ := hs.head
      have hread := readAction_append .nil hs (after ++ Byte.closeBracket :: rest)
      have hfuel : after.length < (after ++ Byte.closeBracket :: rest).length + 1 := by
        rw [List.length_append]
        omega
      have hitems := readItems_remaining (reads_value depth) (starts_denotes depth) hr rest hfuel
      simp only [List.append_assoc, List.cons_append, List.nil_append] at hread ⊢
      rw [readListed, skipSpace_append hg, skipSpace_cons rfl]
      dsimp only
      rw [if_neg (by decide), hread, ok_bind]
      dsimp only
      rw [hitems, ok_bind]
      rfl

/-- Every text of the parts of a command is read. -/
theorem reads_readParts (depth : Nat) : Reads (readParts (depth + 1)) (PartsText depth) := by
  intro before core rest parts hb hc hr
  cases hc with
  | named ho ha =>
    cases ho with
    | braced hl =>
      have hs := foldlM_addMember_of_word none [] ha
      simp only [List.append_assoc, List.cons_append, List.nil_append]
      rw [readParts, skipSpace_append hb, skipSpace_cons rfl]
      dsimp only
      rw [if_neg (by decide)]
      refine (typedObject_append .nil _).trans ?_
      rw [readNamed]
      refine members_append (gathers_commandMember depth) hl hs ?_ rest
      rfl
  | listed hl =>
    cases hl with
    | bracketed hl =>
      have hm := readListed_append hl rest
      simp only [List.append_assoc, List.cons_append, List.nil_append]
      rw [readParts, skipSpace_append hb, skipSpace_cons rfl]
      exact hm

/-! ## The second pass -/

/-- Fields that hold one string under each of the names are gathered. What has been found already
counts as if it stood before them. -/
theorem exists_namedParts {names : List String} {fields : List (String × Value)}
    (found : List (String × String))
    (h : ∀ name ∈ names, ∃ text : String,
      (Fields.under name found).map .string ++ Fields.under name fields = [.string text]) :
    ∃ final, namedParts names fields found = .ok final := by
  induction fields generalizing found with
  | nil => exact ⟨found, rfl⟩
  | cons field rest ih =>
    obtain ⟨other, v⟩ := field
    rw [namedParts]
    by_cases hk : names.contains other = true
    · obtain ⟨text, ht⟩ := h other (List.contains_iff_mem.mp hk)
      rw [Fields.under_cons, if_pos rfl] at ht
      -- Only one value stands under the name, so it is this one and none was found before.
      obtain ⟨hnone, hv⟩ := (List.append_eq_singleton_iff.mp ht).resolve_right
        fun hlater => List.cons_ne_nil _ _ hlater.2
      have hnew : ¬ (found.any fun part => part.1 = other) = true := by
        intro hd
        obtain ⟨part, hp, hn⟩ := List.any_eq_true.mp hd
        exact Fields.under_eq_nil_iff.mp (List.map_eq_nil_iff.mp hnone) part hp
          (of_decide_eq_true hn)
      obtain ⟨rfl, -⟩ := List.cons.inj hv
      rw [if_pos hk, if_neg hnew]
      refine ih _ fun name hn => ?_
      obtain ⟨other, ho⟩ := h name hn
      refine ⟨other, ?_⟩
      rw [← ho, Fields.under_append, Fields.under_singleton, Fields.under_cons, List.map_append,
        List.append_assoc]
      split_ifs <;> rfl
    · rw [if_neg hk]
      refine ih _ fun name hn => ?_
      have he : other ≠ name := by
        rintro rfl
        exact hk (List.contains_iff_mem.mpr hn)
      obtain ⟨text, ht⟩ := h name hn
      rw [Fields.under_cons, if_neg he] at ht
      exact ⟨text, ht⟩

/-- The only part under a name is what is required under it. -/
theorem requiredPart_of_under {name text : String} {found : List (String × String)}
    (h : Fields.under name found = [text]) : requiredPart name found = .ok text := by
  cases hr : requiredPart name found with
  | ok part =>
    have hm := mem_under_of_requiredPart hr
    rw [h, List.mem_singleton] at hm
    rw [hm]
  | error cause =>
    rw [requiredPart] at hr
    split at hr
    · cases hr
    · rename_i hf
      have hnone : Fields.under name found = [] := Fields.under_eq_nil_iff.mpr fun part hp hn =>
        List.find?_eq_none.mp hf part hp (decide_eq_true hn)
      rw [h] at hnone
      cases hnone

/-- Fields with one string under each of the names give these strings. -/
theorem exists_strings (names : List String) {fields : List (String × Value)}
    (h : ∀ name ∈ names, ∃ text : String, Fields.under name fields = [.string text]) :
    ∃ found, namedParts names fields [] = .ok found ∧
      ∀ name ∈ names, ∀ text : String, Fields.under name fields = [.string text] →
        requiredPart name found = .ok text := by
  obtain ⟨found, hf⟩ := exists_namedParts [] h
  refine ⟨found, hf, fun name hn text ht => requiredPart_of_under ?_⟩
  obtain ⟨hs, -⟩ := namedParts_eq_ok hf hn (Nat.zero_le 1)
  rw [ht] at hs
  obtain ⟨one, ho, hone⟩ := List.map_eq_singleton_iff.mp hs
  rw [ho, Value.string.inj hone]

/-- The members of a command are the parts that make it up. -/
theorem OfMembers.exists_parts {pairs : List (String × Value)} {command : RelayCommand}
    (h : OfMembers pairs command) :
    ∃ action, Fields.under "action" pairs = [.string action.word] ∧
      ofParts (.named action (Fields.erase "action" pairs)) = .ok command := by
  cases h with
  | publish ha ht hm =>
    rw [← Fields.under_erase (by decide : "topic" ≠ "action")] at ht
    rw [← Fields.under_erase (by decide : "message" ≠ "action")] at hm
    obtain ⟨found, hf, hr⟩ := exists_strings ["topic", "message"]
      (List.forall_mem_cons.mpr ⟨⟨_, ht⟩, List.forall_mem_singleton.mpr ⟨_, hm⟩⟩)
    refine ⟨.publish, ha, ?_⟩
    rw [ofParts, hf, ok_bind, hr "topic" (by decide) _ ht, ok_bind,
      hr "message" (by decide) _ hm, ok_bind]
    rfl
  | subscribe ha ht =>
    rw [← Fields.under_erase (by decide : "topic" ≠ "action")] at ht
    obtain ⟨found, hf, hr⟩ := exists_strings ["topic"]
      (List.forall_mem_singleton.mpr ⟨_, ht⟩)
    refine ⟨.subscribe, ha, ?_⟩
    rw [ofParts, hf, ok_bind, hr "topic" (by decide) _ ht, ok_bind]
    rfl
  | unsubscribeAll ha => exact ⟨.unsubscribeAll, ha, rfl⟩

/-- The items of a command are the parts that make it up. -/
theorem OfItems.exists_parts {items : List Value} {command : RelayCommand}
    (h : OfItems items command) :
    ∃ action arguments, items = .string (Action.word action) :: arguments ∧
      ofParts (.listed action arguments) = .ok command := by
  cases h with
  | publish => exact ⟨.publish, _, rfl, rfl⟩
  | subscribe => exact ⟨.subscribe, _, rfl, rfl⟩
  | unsubscribeAll => exact ⟨.unsubscribeAll, _, rfl, rfl⟩

/-! ## Both passes -/

/-- A command that is written in a text is read from it. -/
theorem parse_of_spelled {text : String} {command : RelayCommand}
    (h : Spelled (Text.bytes text) command) : parse text = .ok command := by
  have hd (parts : Parts) : Padded (PartsText (depthLimit - 1)) (Text.bytes text) parts →
      document (readParts depthLimit) (Text.bytes text) = .ok parts :=
    (document_iff_padded (reads_readParts _) (readsOnly_readParts _)).mpr
  rw [parse_eq_ok_iff]
  cases h with
  | object hw hc =>
    obtain ⟨action, ha, hp⟩ := hc.exists_parts
    refine ⟨_, hd _ ?_, hp⟩
    generalize Text.bytes text = bytes at hw ⊢
    cases hw with
    | around hb ho hafter => exact .around hb (.named ho ha) hafter
  | array hp hc =>
    obtain ⟨action, arguments, rfl, ho⟩ := hc.exists_parts
    refine ⟨_, hd _ ?_, ho⟩
    have hdenotes := Json.parse_eq_ok_iff.mp hp
    generalize Text.bytes text = bytes at hdenotes ⊢
    cases hdenotes with
    | around hb hv hafter =>
      cases hv with
      | scalar hs => cases hs
      | array ha => exact .around hb (.listed ha) hafter

/-- What spells a command is a document. -/
theorem Spelled.exists_value {text : List UInt8} {command : RelayCommand}
    (h : Spelled text command) : ∃ v, Json.parse text = .ok v := by
  cases h with
  | object hw _ => exact ⟨_, parse_object_iff.mpr ⟨_, hw, rfl⟩⟩
  | array hp _ => exact ⟨_, hp⟩

/-- A text is read as a command exactly if it is a document that spells the command: an object that
has the action once and each of its strings once, whatever else it has, or an array of the action
and its strings alone. Every other text is malformed. -/
theorem parse_exact (text : String) :
    (∀ command, parse text = .ok command ↔
      (∃ v, Json.parse (Text.bytes text) = .ok v) ∧ Spelled (Text.bytes text) command) ∧
    ((∃ error, parse text = .error (.malformed error)) ↔
      ∀ command, ¬ Spelled (Text.bytes text) command) := by
  refine ⟨fun command => ⟨fun h => ?_, fun h => parse_of_spelled h.2⟩, ?_, fun h => ?_⟩
  · have hs := spelled_of_parse h
    exact ⟨hs.exists_value, hs⟩
  · rintro ⟨error, he⟩ command hs
    rw [parse_of_spelled hs] at he
    cases he
  · cases hp : parse text with
    | ok command => exact absurd (spelled_of_parse hp) (h command)
    | error error =>
      obtain ⟨cause, rfl⟩ := exists_malformed hp
      exact ⟨cause, rfl⟩

/-- A second message is no obstacle where none is asked for, only to a publication. -/
example :
    parse "\x7b\"message\":1,\"topic\":\"a\",\"action\":\"subscribe\",\"message\":[]\x7d" =
        .ok (.subscribe "a") ∧
      ∃ error, parse
        "\x7b\"message\":\"m\",\"topic\":\"a\",\"action\":\"publish\",\"message\":\"m\"\x7d" =
          .error error :=
  ⟨rfl, _, rfl⟩

end LiveTopology.RelayCommand
