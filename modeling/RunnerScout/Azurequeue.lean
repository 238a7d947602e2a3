import RunnerScout.Base64

/-! # Bodies of queue messages

Event Grid delivers an event to a storage queue in base64, an emulator delivers it as it
is.  A body is decoded if it is base64 of what looks like a JSON object, and is otherwise
taken as it stands.
-/

namespace RunnerScout.Azurequeue

/-- The white space of JSON. -/
def jsonSpace (b : UInt8) : Bool := b = 32 || b = 9 || b = 10 || b = 13

def openingBrace : UInt8 := 123

def looksLikeJSONObject : List UInt8 → Bool
  | [] => false
  | b :: data => if jsonSpace b then looksLikeJSONObject data else b = openingBrace

def decodeMessageBody (text : List UInt8) : List UInt8 :=
  match Base64.decode text with
  | some decoded => if looksLikeJSONObject decoded then decoded else text
  | none => text

/-- The first byte that is not white space opens an object. -/
def StartsObject (data : List UInt8) : Prop :=
  ∃ space rest, data = space ++ openingBrace :: rest ∧ ∀ b ∈ space, jsonSpace b = true

theorem looksLikeJSONObject_iff : ∀ {data : List UInt8}, looksLikeJSONObject data = true ↔ StartsObject data
  | [] => by simp [looksLikeJSONObject, StartsObject]
  | b :: data => by
    rw [looksLikeJSONObject]
    split
    · rename_i space
      rw [looksLikeJSONObject_iff]
      constructor
      · rintro ⟨before, rest, rfl, spaces⟩
        exact ⟨b :: before, rest, rfl, List.forall_mem_cons.mpr ⟨space, spaces⟩⟩
      · rintro ⟨before, rest, split, spaces⟩
        cases before with
        | nil =>
          cases split
          exact absurd space (by decide)
        | cons c before =>
          cases split
          exact ⟨before, rest, rfl, (List.forall_mem_cons.mp spaces).2⟩
    · rename_i other
      rw [decide_eq_true_eq]
      constructor
      · rintro rfl
        exact ⟨[], data, rfl, by simp⟩
      · rintro ⟨before, rest, split, spaces⟩
        cases before with
        | nil =>
          cases split
          rfl
        | cons c before =>
          cases split
          exact absurd (spaces b List.mem_cons_self) other

/-- A brace, a blank and a tab are outside the alphabet, and only line breaks are skipped. -/
theorem decode_object : ∀ {data : List UInt8}, StartsObject data → Base64.decode data = none
  | [], starts => by simp [StartsObject] at starts
  | b :: data, starts => by
    by_cases skipped : Base64.lineBreak b = true
    · rw [Base64.decode_lineBreak skipped]
      apply decode_object
      rw [← looksLikeJSONObject_iff] at starts ⊢
      have space : jsonSpace b = true := by
        simp only [Base64.lineBreak, Bool.or_eq_true, decide_eq_true_eq] at skipped
        obtain rfl | rfl := skipped <;> decide
      rwa [looksLikeJSONObject, if_pos space] at starts
    · apply Base64.decode_foreign _ (by simpa using skipped)
      obtain ⟨before, rest, split, spaces⟩ := starts
      cases before with
      | nil =>
        cases split
        decide
      | cons c before =>
        cases split
        have space := spaces b List.mem_cons_self
        simp only [jsonSpace, Bool.or_eq_true, decide_eq_true_eq] at space
        rcases space with ((rfl | rfl) | rfl) | rfl <;> revert skipped <;> decide

/-- An object is read back from its bytes and from their encoding, and what is read of any
    text is the text or a decoding of it to an object. -/
theorem decodeMessageBody_both_ways :
    (∀ p, StartsObject p → decodeMessageBody p = p ∧ decodeMessageBody (Base64.encode p) = p) ∧
      ∀ text, decodeMessageBody text = text ∨
        ∃ decoded, Base64.decode text = some decoded ∧ StartsObject decoded ∧ decodeMessageBody text = decoded := by
  refine ⟨fun p starts => ⟨?_, ?_⟩, fun text => ?_⟩
  · rw [decodeMessageBody, decode_object starts]
  · rw [decodeMessageBody, Base64.decode_encode]
    exact if_pos (looksLikeJSONObject_iff.mpr starts)
  · unfold decodeMessageBody
    split
    · rename_i decoded read
      split
      · rename_i looks
        exact .inr ⟨decoded, read, looksLikeJSONObject_iff.mp looks, rfl⟩
      · exact .inl rfl
    · exact .inl rfl

end RunnerScout.Azurequeue
