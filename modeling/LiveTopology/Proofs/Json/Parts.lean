import LiveTopology.Proofs.Json.Scan

/-!
# Arrays and objects are read as their parts are

The loops over arrays and objects read the texts of the grammar and no others, whatever reader they
use for their parts. Each loop follows what remains of an inside behind its last part, so both
directions go by one round.
-/

namespace LiveTopology.Json

/-! ## White space -/

theorem Blank.nil : Blank [] := nofun

/-- White space behind white space is white space. -/
theorem Blank.append {a b : List UInt8} (ha : Blank a) (hb : Blank b) : Blank (a ++ b) :=
  fun c hc => (List.mem_append.mp hc).elim (ha c) (hb c)

/-- White space does not go on a number. -/
theorem not_continuesNumber_of_isSpace {b : UInt8} (h : isSpace b = true) :
    continuesNumber b = false := by
  simp only [isSpace, Bool.or_eq_true, decide_eq_true_eq] at h
  rcases h with ((rfl | rfl) | rfl) | rfl <;> rfl

/-- A number ends before white space. -/
theorem Blank.ends {text : List UInt8} (h : Blank text) : Ends continuesNumber text :=
  fun b hb => not_continuesNumber_of_isSpace (h b (List.mem_of_mem_head? hb))

/-- What is skipped is white space. -/
theorem blank_takeWhile (input : List UInt8) : Blank (input.takeWhile isSpace) :=
  fun b hb => List.all_eq_true.mp List.all_takeWhile b hb

/-- White space in front is skipped. -/
theorem skipSpace_append {gap : List UInt8} (hb : Blank gap) (rest : List UInt8) :
    skipSpace (gap ++ rest) = skipSpace rest := by
  rw [skipSpace, List.dropWhile_append_of_pos hb, skipSpace]

/-- All is skipped exactly if all is white space. -/
theorem skipSpace_eq_nil_iff {input : List UInt8} : skipSpace input = [] ↔ Blank input := by
  constructor
  · intro h
    have hs : input.takeWhile isSpace ++ input.dropWhile isSpace = input :=
      List.takeWhile_append_dropWhile
    rw [← skipSpace, h, List.append_nil] at hs
    exact hs ▸ blank_takeWhile input
  · intro h
    have hs := skipSpace_append h []
    rw [List.append_nil] at hs
    exact hs

/-- Nothing is skipped before a byte that is no white space. -/
theorem skipSpace_cons {b : UInt8} (hb : isSpace b = false) (rest : List UInt8) :
    skipSpace (b :: rest) = b :: rest := by
  rw [skipSpace, List.dropWhile_cons_of_neg (by rw [hb]; decide)]

/-- White space is skipped up to the first byte that is none. -/
theorem exists_blank_of_skipSpace {input rest : List UInt8} {b : UInt8}
    (h : skipSpace input = b :: rest) :
    isSpace b = false ∧ ∃ gap, Blank gap ∧ input = gap ++ b :: rest := by
  refine ⟨?_, input.takeWhile isSpace, ?_, ?_⟩
  · have hn := List.head?_dropWhile_not isSpace input
    rw [← skipSpace, h] at hn
    exact hn
  · exact blank_takeWhile input
  · rw [← h, skipSpace, List.takeWhile_append_dropWhile]

/-! ## What remains of an inside -/

section

variable {α : Type} {part : List UInt8 → α → Prop}

/-- What stands before a part: white space, and a comma unless it is the first. -/
inductive Lead : (first : Bool) → List UInt8 → Prop where
  | first {gap : List UInt8} (hb : Blank gap) : Lead true gap
  | later {gap before : List UInt8} (hg : Blank gap) (hb : Blank before) :
      Lead false (gap ++ Byte.comma :: before)

/-- What remains of the inside of an array or object, before its first part or behind one. -/
inductive Remaining (part : List UInt8 → α → Prop) : (first : Bool) → List UInt8 → List α → Prop
    where
  | done {first : Bool} {gap : List UInt8} (hb : Blank gap) : Remaining part first gap []
  | part {first : Bool} {lead core after : List UInt8} {a : α} {later : List α}
      (hl : Lead first lead) (hp : part core a) (hr : Remaining part false after later) :
      Remaining part first (lead ++ core ++ after) (a :: later)

/-- White space may stand before what leads to a part. -/
theorem Lead.blank_append {first : Bool} {gap lead : List UInt8} (hg : Blank gap)
    (hl : Lead first lead) : Lead first (gap ++ lead) := by
  cases hl with
  | first hb => exact .first (hg.append hb)
  | later hgap hb =>
    rw [← List.append_assoc]
    exact .later (hg.append hgap) hb

/-- White space may stand behind what leads to a part. -/
theorem Lead.append_blank {first : Bool} {lead before : List UInt8} (hl : Lead first lead)
    (hb : Blank before) : Lead first (lead ++ before) := by
  cases hl with
  | first hg => exact .first (hg.append hb)
  | later hg hgap =>
    rw [List.append_assoc, List.cons_append]
    exact .later hg (hgap.append hb)

/-- A comma makes the first part a later one. -/
theorem Remaining.behind_comma {gap text : List UInt8} {a : α} {later : List α} (hg : Blank gap)
    (h : Remaining part true text (a :: later)) :
    Remaining part false (gap ++ Byte.comma :: text) (a :: later) := by
  cases h with
  | part hl hp hr =>
    rename_i lead core after
    cases hl with
    | first hb =>
      have hs : gap ++ Byte.comma :: (lead ++ core ++ after) =
          (gap ++ Byte.comma :: lead) ++ core ++ after := by simp
      rw [hs]
      exact .part (.later hg hb) hp hr

/-- A series is what remains of an inside before its first part. -/
theorem Series.remaining {text : List UInt8} {all : List α} (h : Series part text all) :
    ∃ a later, all = a :: later ∧ Remaining part true text all := by
  induction h with
  | last hp =>
    cases hp with
    | around hb hc ha => exact ⟨_, _, rfl, .part (.first hb) hc (.done ha)⟩
  | more hp _ ih =>
    obtain ⟨a, later, rfl, hr⟩ := ih
    cases hp with
    | around hb hc ha =>
      rw [List.append_assoc]
      exact ⟨_, _, rfl, .part (.first hb) hc (hr.behind_comma ha)⟩

/-- A part and what remains behind it are a series. -/
theorem Series.of_remaining {before core after : List UInt8} {a : α} {later : List α}
    (hb : Blank before) (hc : part core a) (hr : Remaining part false after later) :
    Series part (before ++ core ++ after) (a :: later) := by
  induction later generalizing before core after a with
  | nil =>
    cases hr with
    | done ha => exact .last (.around hb hc ha)
  | cons next later ih =>
    cases hr with
    | part hl hp hr =>
      cases hl with
      | later hg hgap =>
        rename_i lead rest gap space
        have hs : before ++ core ++ (gap ++ Byte.comma :: space ++ lead ++ rest) =
            before ++ core ++ gap ++ Byte.comma :: (space ++ lead ++ rest) := by simp
        rw [hs]
        exact .more (.around hb hc hg) (ih hgap hp hr)

/-- A whole inside is what remains before the first part. -/
theorem listing_iff_remaining {inside : List UInt8} {all : List α} :
    Listing part inside all ↔ Remaining part true inside all := by
  constructor
  · intro h
    cases h with
    | none hb => exact .done hb
    | some hs =>
      obtain ⟨_, _, _, hr⟩ := hs.remaining
      exact hr
  · intro h
    cases h with
    | done hb => exact .none hb
    | part hl hp hr =>
      cases hl with
      | first hb => exact .some (.of_remaining hb hp hr)

/-- Behind a part, no number goes on. -/
theorem Remaining.ends {after : List UInt8} {later : List α} (h : Remaining part false after later)
    {b : UInt8} (hb : continuesNumber b = false) (rest : List UInt8) :
    Ends continuesNumber (after ++ b :: rest) := by
  cases h with
  | done hg => exact hg.ends.append (ends_cons.mpr hb)
  | part hl _ _ =>
    cases hl with
    | later hg _ =>
      simp only [List.append_assoc]
      exact hg.ends.append (ends_cons.mpr rfl)

/-! ## Readers and the texts they read -/

/-- The reader takes every text of a kind off the front, with the white space before it, unless a
number in it could go on. -/
def Reads (reader : Reader α) (part : List UInt8 → α → Prop) : Prop :=
  ∀ ⦃before core rest : List UInt8⦄ ⦃a : α⦄, Blank before → part core a →
    Ends continuesNumber rest → reader (before ++ core ++ rest) = .ok (a, rest)

/-- The reader takes nothing off the front but texts of a kind, with white space before them. -/
def ReadsOnly (reader : Reader α) (part : List UInt8 → α → Prop) : Prop :=
  ∀ ⦃input rest : List UInt8⦄ ⦃a : α⦄, reader input = .ok (a, rest) →
    ∃ before core, Blank before ∧ part core a ∧ input = before ++ core ++ rest

/-- The texts of a kind start with a byte that is neither white space nor a closing bracket. -/
def Starts (part : List UInt8 → α → Prop) : Prop :=
  ∀ ⦃core : List UInt8⦄ ⦃a : α⦄, part core a →
    ∃ b tail, core = b :: tail ∧ isSpace b = false ∧ b ≠ Byte.closeBracket

/-! ## Arrays -/

theorem nextItem_first (b : UInt8) (rest : List UInt8) : nextItem true b rest = .ok (b :: rest) :=
  rfl

/-- A later item starts behind a comma and white space. -/
theorem nextItem_later {gap : List UInt8} {b : UInt8} (hg : Blank gap) (hb : isSpace b = false)
    (hc : b ≠ Byte.closeBracket) (after : List UInt8) :
    nextItem false Byte.comma (gap ++ b :: after) = .ok (b :: after) := by
  rw [nextItem, if_neg Bool.false_ne_true, if_pos rfl, skipSpace_append hg, skipSpace_cons hb]
  exact if_neg hc

/-- What was passed over before an item is what may lead to it. -/
theorem lead_of_nextItem {first : Bool} {b : UInt8} {rest start : List UInt8}
    (h : nextItem first b rest = .ok start) :
    ∃ lead, Lead first lead ∧ b :: rest = lead ++ start := by
  rw [nextItem] at h
  split at h
  · rename_i hf
    cases h
    exact ⟨[], hf ▸ .first .nil, rfl⟩
  · rename_i hf
    rw [Bool.not_eq_true] at hf
    split at h
    · rename_i hb
      split at h
      · cases h
      · rename_i c after hs
        obtain ⟨-, gap, hg, rfl⟩ := exists_blank_of_skipSpace hs
        split at h
        · cases h
        · cases h
          exact ⟨Byte.comma :: gap, hf ▸ .later .nil hg, by rw [hb]; rfl⟩
    · cases h

/-- One round of the loop takes a part off what remains. -/
theorem readItems_part {item : Reader α} {first : Bool} {lead core rest : List UInt8} {a : α}
    (hi : Reads item part) (hs : Starts part) (hl : Lead first lead)
    (hp : part core a) (hr : Ends continuesNumber rest) (fuel : Nat) :
    readItems item (fuel + 1) first (lead ++ core ++ rest) = (do
      let (later, rest) ← readItems item fuel false rest
      pure (a :: later, rest)) := by
  obtain ⟨b, tail, rfl, hb, hc⟩ := hs hp
  have hread := hi Blank.nil hp hr
  rw [List.nil_append, List.cons_append] at hread
  cases hl with
  | first hg =>
    rw [List.append_assoc, List.cons_append, readItems, skipSpace_append hg, skipSpace_cons hb]
    dsimp only
    rw [if_neg hc, nextItem_first, ok_bind, hread, ok_bind]
  | later hg hgap =>
    have hn := nextItem_later hgap hb hc (tail ++ rest)
    simp only [List.append_assoc, List.cons_append]
    rw [readItems, skipSpace_append hg, skipSpace_cons rfl]
    dsimp only
    rw [if_neg (by decide), hn, ok_bind, hread, ok_bind]

/-- What remains of an array is read up to the closing bracket. -/
theorem readItems_remaining {item : Reader α} {first : Bool} {inside : List UInt8} {all : List α}
    (hi : Reads item part) (hs : Starts part)
    (h : Remaining part first inside all) (rest : List UInt8) {fuel : Nat}
    (hf : inside.length < fuel) :
    readItems item fuel first (inside ++ Byte.closeBracket :: rest) = .ok (all, rest) := by
  induction h generalizing fuel with
  | done hb =>
    cases fuel with
    | zero => exact absurd hf (Nat.not_lt_zero _)
    | succ fuel =>
      rw [readItems, skipSpace_append hb, skipSpace_cons rfl]
      exact if_pos rfl
  | part hl hp hr ih =>
    rename_i lead core after a later
    cases fuel with
    | zero => exact absurd hf (Nat.not_lt_zero _)
    | succ fuel =>
      have hlen : after.length < fuel := by
        obtain ⟨b, tail, rfl, -, -⟩ := hs hp
        simp only [List.length_append, List.length_cons] at hf
        omega
      rw [List.append_assoc, readItems_part hi hs hl hp (hr.ends rfl rest), ih hlen]
      rfl

/-- The loop over items takes nothing but what remains of the inside of an array. -/
theorem remaining_of_readItems {item : Reader α} (hi : ReadsOnly item part) {fuel : Nat}
    {first : Bool} {input rest : List UInt8} {all : List α}
    (h : readItems item fuel first input = .ok (all, rest)) :
    ∃ inside, Remaining part first inside all ∧ input = inside ++ Byte.closeBracket :: rest := by
  induction fuel generalizing first input all with
  | zero => cases h
  | succ fuel ih =>
    rw [readItems] at h
    split at h
    · cases h
    · rename_i b tail hs
      obtain ⟨-, gap, hg, rfl⟩ := exists_blank_of_skipSpace hs
      split at h
      · rename_i hb
        cases h
        exact ⟨gap, .done hg, by rw [hb]⟩
      · obtain ⟨start, hn, h⟩ := exists_of_bind_eq_ok h
        obtain ⟨⟨a, after⟩, ha, h⟩ := exists_of_bind_eq_ok h
        obtain ⟨⟨later, rest⟩, hl, h⟩ := exists_of_bind_eq_ok h
        cases h
        obtain ⟨lead, hlead, hstart⟩ := lead_of_nextItem hn
        obtain ⟨before, core, hb, hp, rfl⟩ := hi ha
        obtain ⟨inside, hr, rfl⟩ := ih hl
        refine ⟨_, .part ((hlead.blank_append hg).append_blank hb) hp hr, ?_⟩
        rw [hstart]
        simp only [List.append_assoc]

/-- Behind its opening bracket, an array of the texts of its items is read. -/
theorem items_append {item : Reader α} {inside : List UInt8} {all : List α}
    (hi : Reads item part) (hs : Starts part) (h : Listing part inside all)
    (rest : List UInt8) : items item (inside ++ Byte.closeBracket :: rest) = .ok (all, rest) := by
  refine readItems_remaining hi hs (listing_iff_remaining.mp h) rest ?_
  rw [List.length_append]
  omega

/-- Nothing but the inside of an array is read behind its opening bracket. -/
theorem listing_of_items {item : Reader α} (hi : ReadsOnly item part) {input rest : List UInt8}
    {all : List α} (h : items item input = .ok (all, rest)) :
    ∃ inside, Listing part inside all ∧ input = inside ++ Byte.closeBracket :: rest := by
  obtain ⟨inside, hr, hs⟩ := remaining_of_readItems hi h
  exact ⟨inside, listing_iff_remaining.mpr hr, hs⟩

end

/-! ## Objects -/

section

variable {α σ : Type} {part : List UInt8 → α → Prop} {member : String → σ → Reader σ}
  {step : σ → String × α → Option σ}

/-- The reader of what follows a key takes every text of a kind behind a colon, if `step` allows the
key and its value, and gathers what `step` says. -/
def Gathers (member : String → σ → Reader σ) (part : List UInt8 → α → Prop)
    (step : σ → String × α → Option σ) : Prop :=
  ∀ ⦃gap before core rest : List UInt8⦄ ⦃key : String⦄ ⦃a : α⦄ ⦃gathered next : σ⦄, Blank gap →
    Blank before → part core a → Ends continuesNumber rest → step gathered (key, a) = some next →
    member key gathered (gap ++ Byte.colon :: (before ++ core ++ rest)) = .ok (next, rest)

/-- The reader of what follows a key takes nothing else, and gathers nothing else. -/
def GathersOnly (member : String → σ → Reader σ) (part : List UInt8 → α → Prop)
    (step : σ → String × α → Option σ) : Prop :=
  ∀ ⦃input rest : List UInt8⦄ ⦃key : String⦄ ⦃gathered next : σ⦄,
    member key gathered input = .ok (next, rest) →
    ∃ gap before core a, Blank gap ∧ Blank before ∧ part core a ∧
      step gathered (key, a) = some next ∧
      input = gap ++ Byte.colon :: (before ++ core ++ rest)

/-- A string starts with a quote. -/
theorem StringText.head {text : List UInt8} {s : String} (h : StringText text s) :
    ∃ written, text = Byte.quote :: written := by
  cases h with
  | quoted _ _ => exact ⟨_, rfl⟩

theorem nextKey_first (rest : List UInt8) : nextKey true Byte.quote rest = .ok rest := rfl

/-- A later key starts behind a comma and white space. -/
theorem nextKey_later {gap : List UInt8} (hg : Blank gap) (rest : List UInt8) :
    nextKey false Byte.comma (gap ++ Byte.quote :: rest) = .ok rest := by
  rw [nextKey, if_neg Bool.false_ne_true, if_pos rfl, skipSpace_append hg, skipSpace_cons rfl]
  rfl

/-- What was passed over before a key is what may lead to it. -/
theorem lead_of_nextKey {first : Bool} {b : UInt8} {rest start : List UInt8}
    (h : nextKey first b rest = .ok start) :
    ∃ lead, Lead first lead ∧ b :: rest = lead ++ Byte.quote :: start := by
  rw [nextKey] at h
  split at h
  · rename_i hf
    split at h
    · rename_i hb
      cases h
      exact ⟨[], hf ▸ .first .nil, by rw [hb]; rfl⟩
    · cases h
  · rename_i hf
    rw [Bool.not_eq_true] at hf
    split at h
    · rename_i hb
      split at h
      · cases h
      · rename_i c after hs
        obtain ⟨-, gap, hg, rfl⟩ := exists_blank_of_skipSpace hs
        split at h
        · rename_i hc
          cases h
          exact ⟨Byte.comma :: gap, hf ▸ .later .nil hg, by rw [hb, hc]; rfl⟩
        · split at h <;> cases h
    · cases h

/-- One round of the loop takes a member off what remains. -/
theorem readMembers_part (hm : Gathers member part step) {first : Bool}
    {lead core rest : List UInt8} {pair : String × α} {gathered next : σ} (hl : Lead first lead)
    (hp : MemberText part core pair) (hs : step gathered pair = some next)
    (hr : Ends continuesNumber rest) (fuel : Nat) :
    readMembers member (fuel + 1) first gathered (lead ++ core ++ rest) =
      readMembers member fuel false next rest := by
  cases hp with
  | keyed hk hg hb hc =>
    rename_i key gap before core name a
    obtain ⟨written, rfl⟩ := hk.head
    have hvalue := hm hg hb hc hr hs
    have hkey (rest : List UInt8) : readString (written ++ rest) = .ok (name, rest) :=
      readString_eq_ok_iff.mpr ⟨written, hk, rfl⟩
    simp only [List.append_assoc, List.cons_append] at hvalue ⊢
    cases hl with
    | first hlead =>
      rw [readMembers, skipSpace_append hlead, skipSpace_cons rfl]
      dsimp only
      rw [if_neg (by decide), nextKey_first, ok_bind, hkey, ok_bind]
      dsimp only
      rw [hvalue, ok_bind]
    | later hlead hgap =>
      rw [List.append_assoc, readMembers, skipSpace_append hlead, List.cons_append,
        skipSpace_cons rfl]
      dsimp only
      rw [if_neg (by decide), nextKey_later hgap, ok_bind, hkey, ok_bind]
      dsimp only
      rw [hvalue, ok_bind]

/-- What remains of an object is read up to its closing brace. -/
theorem readMembers_remaining (hm : Gathers member part step) {first : Bool} {inside : List UInt8}
    {pairs : List (String × α)} (h : Remaining (MemberText part) first inside pairs)
    {gathered final : σ} (hs : pairs.foldlM step gathered = some final) (rest : List UInt8)
    {fuel : Nat} (hf : inside.length < fuel) :
    readMembers member fuel first gathered (inside ++ Byte.closeBrace :: rest) =
      .ok (final, Byte.closeBrace :: rest) := by
  induction h generalizing gathered fuel with
  | done hb =>
    cases fuel with
    | zero => exact absurd hf (Nat.not_lt_zero _)
    | succ fuel =>
      obtain rfl := Option.some.inj hs
      rw [readMembers, skipSpace_append hb, skipSpace_cons rfl]
      exact if_pos rfl
  | part hl hp hr ih =>
    rename_i lead core after pair later
    cases fuel with
    | zero => exact absurd hf (Nat.not_lt_zero _)
    | succ fuel =>
      rw [List.foldlM_cons] at hs
      obtain ⟨next, hn, hs⟩ := Option.bind_eq_some_iff.mp hs
      have hlen : after.length < fuel := by
        cases hp with
        | keyed _ _ _ _ =>
          simp only [List.length_append, List.length_cons] at hf
          omega
      rw [List.append_assoc, readMembers_part hm hl hp hn (hr.ends rfl rest), ih hs hlen]

/-- The loop over members takes nothing but what remains of the inside of an object, and gathers it
in order. -/
theorem remaining_of_readMembers (hm : GathersOnly member part step) {fuel : Nat} {first : Bool}
    {input rest : List UInt8} {gathered final : σ}
    (h : readMembers member fuel first gathered input = .ok (final, rest)) :
    ∃ inside pairs after, Remaining (MemberText part) first inside pairs ∧
      pairs.foldlM step gathered = some final ∧ input = inside ++ rest ∧
      rest = Byte.closeBrace :: after := by
  induction fuel generalizing first input gathered with
  | zero => cases h
  | succ fuel ih =>
    rw [readMembers] at h
    split at h
    · cases h
    · rename_i b tail hs
      obtain ⟨-, gap, hg, rfl⟩ := exists_blank_of_skipSpace hs
      split at h
      · rename_i hb
        cases h
        exact ⟨gap, [], tail, .done hg, rfl, rfl, by rw [hb]⟩
      · obtain ⟨start, hn, h⟩ := exists_of_bind_eq_ok h
        obtain ⟨⟨key, behind⟩, hkey, h⟩ := exists_of_bind_eq_ok h
        obtain ⟨⟨next, after⟩, hvalue, hloop⟩ := exists_of_bind_eq_ok h
        obtain ⟨lead, hlead, hstart⟩ := lead_of_nextKey hn
        obtain ⟨written, hk, rfl⟩ := readString_eq_ok_iff.mp hkey
        -- The member as it is written, then what remains behind it by induction.
        obtain ⟨space, before, core, a, hspace, hb, hc, hstep, rfl⟩ := hm hvalue
        obtain ⟨inside, pairs, closing, hr, hfold, rfl, hclosing⟩ := ih hloop
        refine ⟨_, (key, a) :: pairs, closing,
          .part (hlead.blank_append hg) (.keyed hk hspace hb hc) hr, ?_, ?_, hclosing⟩
        · rw [List.foldlM_cons, hstep]
          exact hfold
        · rw [hstart]
          simp only [List.append_assoc, List.cons_append]

/-- An object that is complete is closed behind its brace. -/
theorem closeObject_closeBrace (rest : List UInt8) :
    closeObject (Byte.closeBrace :: rest) = rest := by
  rw [closeObject, skipSpace_cons rfl]
  exact if_pos rfl

variable {β : Type} {start : σ} {finish : σ → Except Cause β}

/-- Behind its opening brace, an object of the texts of its members is read, if what they make up
can be finished. -/
theorem members_append (hm : Gathers member part step) {inside : List UInt8}
    {pairs : List (String × α)} (h : Listing (MemberText part) inside pairs) {final : σ} {b : β}
    (hs : pairs.foldlM step start = some final) (hb : finish final = .ok b) (rest : List UInt8) :
    members member start finish (inside ++ Byte.closeBrace :: rest) = .ok (b, rest) := by
  have hr := readMembers_remaining hm (listing_iff_remaining.mp h) hs rest
    (Nat.lt_succ_of_le (List.length_append ▸ Nat.le_add_right _ _ :
      inside.length ≤ (inside ++ Byte.closeBrace :: rest).length))
  rw [members]
  dsimp only
  rw [hr, ok_bind]
  simp only [hb, closeObject_closeBrace]
  rfl

/-- Nothing but the inside of an object is read behind its opening brace, and its members are
gathered in order. -/
theorem listing_of_members (hm : GathersOnly member part step) {input rest : List UInt8} {b : β}
    (h : members member start finish input = .ok (b, rest)) :
    ∃ inside pairs final, Listing (MemberText part) inside pairs ∧
      pairs.foldlM step start = some final ∧ finish final = .ok b ∧
      input = inside ++ Byte.closeBrace :: rest := by
  rw [members] at h
  dsimp only at h
  cases hr : readMembers member (input.length + 1) true start input with
  | error fault => rw [hr] at h; cases h
  | ok result =>
    obtain ⟨final, unread⟩ := result
    obtain ⟨inside, pairs, after, hp, hs, hi, rfl⟩ := remaining_of_readMembers hm hr
    rw [hr, ok_bind] at h
    cases hb : finish final with
    | error cause => simp only [hb] at h; cases h
    | ok found =>
      simp only [hb, closeObject_closeBrace] at h
      cases h
      exact ⟨inside, pairs, final, listing_iff_remaining.mpr hp, hs, hb, hi⟩

end

end LiveTopology.Json
