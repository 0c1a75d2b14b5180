import LiveTopology.Json.Typed
import LiveTopology.Proofs.Json.Values

/-!
# A deeper limit accepts no less

What is read under one limit of depth is read to the same result under a higher one. The loops over
arrays and objects carry this over from their parts, together with any property that the results of
the parts have.
-/

namespace LiveTopology.Json

/-- Whatever the first reader takes, the second one takes to the same result, and the result has the
property. -/
def Within {α : Type} (property : α → Prop) (small large : Reader α) : Prop :=
  ∀ ⦃input rest : List UInt8⦄ ⦃a : α⦄, small input = .ok (a, rest) →
    large input = .ok (a, rest) ∧ property a

section

variable {α σ β : Type}

/-- The loop over items takes under the higher limit what it takes under the lower one. -/
theorem within_readItems {property : α → Prop} {small large : Reader α}
    (h : Within property small large) (fuel : Nat) (first : Bool) :
    Within (fun all => ∀ a ∈ all, property a) (readItems small fuel first)
      (readItems large fuel first) := by
  induction fuel generalizing first with
  | zero =>
    intro input rest all hr
    cases hr
  | succ fuel ih =>
    intro input rest all hr
    rw [readItems] at hr ⊢
    cases hs : skipSpace input with
    | nil => rw [hs] at hr; cases hr
    | cons b tail =>
      rw [hs] at hr
      dsimp only at hr ⊢
      split at hr
      · rename_i hb
        cases hr
        exact ⟨if_pos hb, List.forall_mem_nil property⟩
      · rename_i hb
        obtain ⟨start, hn, hr⟩ := exists_of_bind_eq_ok hr
        obtain ⟨⟨a, after⟩, ha, hr⟩ := exists_of_bind_eq_ok hr
        obtain ⟨⟨later, _⟩, hl, hr⟩ := exists_of_bind_eq_ok hr
        cases hr
        -- Both readers take the same item, so they go on at the same place.
        obtain ⟨hlarge, hproperty⟩ := h ha
        obtain ⟨hlater, hall⟩ := ih false hl
        refine ⟨?_, List.forall_mem_cons.mpr ⟨hproperty, hall⟩⟩
        rw [if_neg hb, hn, ok_bind, hlarge, ok_bind]
        dsimp only
        rw [hlater]
        rfl

/-- Arrays are taken as their items are. -/
theorem within_items {property : α → Prop} {small large : Reader α}
    (h : Within property small large) :
    Within (fun all => ∀ a ∈ all, property a) (items small) (items large) :=
  fun input _ _ hr => within_readItems h (input.length + 1) true hr

/-- The loop over members takes under the higher limit what it takes under the lower one. -/
theorem within_readMembers {property : σ → Prop} {small large : String → σ → Reader σ}
    (h : ∀ key gathered, property gathered →
      Within property (small key gathered) (large key gathered))
    (fuel : Nat) (first : Bool) {gathered : σ} (hg : property gathered) :
    Within property (readMembers small fuel first gathered)
      (readMembers large fuel first gathered) := by
  induction fuel generalizing first gathered with
  | zero =>
    intro input rest final hr
    cases hr
  | succ fuel ih =>
    intro input rest final hr
    rw [readMembers] at hr ⊢
    cases hs : skipSpace input with
    | nil => rw [hs] at hr; cases hr
    | cons b tail =>
      rw [hs] at hr
      dsimp only at hr ⊢
      split at hr
      · rename_i hb
        cases hr
        exact ⟨if_pos hb, hg⟩
      · rename_i hb
        obtain ⟨start, hn, hr⟩ := exists_of_bind_eq_ok hr
        obtain ⟨⟨key, behind⟩, hkey, hr⟩ := exists_of_bind_eq_ok hr
        obtain ⟨⟨next, after⟩, hvalue, hloop⟩ := exists_of_bind_eq_ok hr
        obtain ⟨hlarge, hnext⟩ := h key gathered hg hvalue
        obtain ⟨hlater, hfinal⟩ := ih false hnext hloop
        refine ⟨?_, hfinal⟩
        rw [if_neg hb, hn, ok_bind, hkey, ok_bind]
        dsimp only
        rw [hlarge, ok_bind]
        exact hlater

/-- Objects are taken as their members are. -/
theorem within_members {property : σ → Prop} {result : β → Prop}
    {small large : String → σ → Reader σ} {start : σ} {finish : σ → Except Cause β}
    (h : ∀ key gathered, property gathered →
      Within property (small key gathered) (large key gathered))
    (hs : property start)
    (hf : ∀ final b, property final → finish final = .ok b → result b) :
    Within result (members small start finish) (members large start finish) := by
  intro input rest b hm
  rw [members] at hm ⊢
  dsimp only at hm ⊢
  cases hr : readMembers small (input.length + 1) true start input with
  | error fault => rw [hr] at hm; cases hm
  | ok outcome =>
    obtain ⟨final, unread⟩ := outcome
    obtain ⟨hlarge, hfinal⟩ := within_readMembers h (input.length + 1) true hs hr
    rw [hr, ok_bind] at hm
    rw [hlarge, ok_bind]
    refine ⟨hm, ?_⟩
    cases hb : finish final with
    | error cause => simp only [hb] at hm; cases hm
    | ok found =>
      simp only [hb] at hm
      cases hm
      exact hf final _ hfinal hb

/-- Documents are taken as their texts are. -/
theorem within_document {property : α → Prop} {small large : Reader α}
    (h : Within property small large) {text : List UInt8} {a : α}
    (hd : document small text = .ok a) : document large text = .ok a ∧ property a := by
  obtain ⟨rest, hr, hb⟩ := document_eq_ok_iff.mp hd
  obtain ⟨hlarge, hp⟩ := h hr
  exact ⟨document_eq_ok_iff.mpr ⟨rest, hlarge, hb⟩, hp⟩

end

/-! ## Values -/

/-- A member is taken as its value is. -/
theorem within_valueMember {small large : Reader Value} {property : Value → Prop}
    (h : Within property small large) (key : String) {gathered : List (String × Value)}
    (hg : ∀ member ∈ gathered, property member.2) :
    Within (fun next => ∀ member ∈ next, property member.2) (valueMember small key gathered)
      (valueMember large key gathered) := by
  intro input rest next hr
  obtain ⟨behind, hcolon, hr⟩ := exists_of_bind_eq_ok hr
  obtain ⟨⟨v, after⟩, hv, hr⟩ := exists_of_bind_eq_ok hr
  cases hr
  obtain ⟨hlarge, hproperty⟩ := h hv
  rw [valueMember, hcolon, ok_bind, hlarge]
  refine ⟨rfl, fun member hm => ?_⟩
  rcases Fields.mem_put hm with rfl | hm
  · exact hproperty
  · exact hg member hm

/-- The limit matters to arrays and objects only. -/
theorem value_eq_of_ne {input tail : List UInt8} {b : UInt8} (hs : skipSpace input = b :: tail)
    (ha : b ≠ Byte.openBracket) (ho : b ≠ Byte.openBrace) (depth other : Nat) :
    value depth input = value other input := by
  rw [value.eq_def, value.eq_def other, hs]
  simp only [if_neg ha, if_neg ho]

/-- One more level changes nothing about a value that was read. -/
theorem within_value (depth : Nat) :
    Within (fun v => v.nesting ≤ depth) (value depth) (value (depth + 1)) := by
  induction depth using Nat.strongRecOn with
  | ind depth ih =>
    intro input rest v h
    obtain ⟨_, _, _, hd, _⟩ := readsOnly_value depth h
    refine ⟨?_, hd.nesting_le⟩
    obtain ⟨before, hb, ⟨core, hs, rfl⟩ | ⟨deeper, tail, rfl, hv⟩⟩ := value_cases h
    · obtain ⟨b, tail, rfl, hspace, -, hbracket, hbrace⟩ := hs.starts
      have hskip : skipSpace (before ++ b :: tail ++ rest) = b :: (tail ++ rest) := by
        rw [List.append_assoc, skipSpace_append hb, List.cons_append, skipSpace_cons hspace]
      rw [value_eq_of_ne hskip hbracket hbrace (depth + 1) depth]
      exact h
    · have hin := ih deeper (Nat.lt_succ_self deeper)
      rcases hv with ⟨found, rfl, rfl, hf⟩ | ⟨found, rfl, rfl, hf⟩
      · rw [value_array (deeper + 1) hb, (within_items hin hf).1]
        rfl
      · have hm : Within (fun _ => True) (members (valueMember (value deeper)) [] Except.ok)
            (members (valueMember (value (deeper + 1))) [] .ok) :=
          within_members (fun key _ hg => within_valueMember hin key hg) nofun
            fun _ _ _ _ => trivial
        rw [value_object (deeper + 1) hb, (hm hf).1]
        rfl

/-! ## Typed arrays and objects -/

section

variable {α : Type} (property : (depth : Nat) → α → Prop) {reader : (depth : Nat) → Reader α}

/-- A typed object is taken as its members are. -/
theorem within_typedObject
    (h : ∀ depth, Within (property (depth + 1)) (reader depth) (reader (depth + 1)))
    (expected : String) (depth : Nat) :
    Within (property depth) (typedObject expected depth reader)
      (typedObject expected (depth + 1) reader) := by
  intro input rest a hr
  rw [typedObject] at hr ⊢
  cases hs : skipSpace input with
  | nil => rw [hs] at hr; cases hr
  | cons b tail =>
    rw [hs] at hr
    dsimp only at hr ⊢
    split at hr
    · rename_i hb
      cases depth with
      | zero => cases hr
      | succ depth =>
        rw [if_pos hb]
        exact h depth hr
    · cases hr

/-- A typed array is taken as its items are, which lie one level deeper. -/
theorem within_typedArray
    (h : ∀ depth, Within (property depth) (reader depth) (reader (depth + 1))) (depth : Nat) :
    Within (fun all => ∀ a ∈ all, ∃ deeper, depth = deeper + 1 ∧ property deeper a)
      (typedArray depth reader) (typedArray (depth + 1) reader) := by
  intro input rest all hr
  rw [typedArray] at hr ⊢
  cases hs : skipSpace input with
  | nil => rw [hs] at hr; cases hr
  | cons b tail =>
    rw [hs] at hr
    dsimp only at hr ⊢
    split at hr
    · rename_i hb
      cases depth with
      | zero => cases hr
      | succ depth =>
        rw [if_pos hb]
        obtain ⟨hlarge, hall⟩ := within_items (h depth) hr
        exact ⟨hlarge, fun a ha => ⟨depth, rfl, hall a ha⟩⟩
    · cases hr

end

end LiveTopology.Json
