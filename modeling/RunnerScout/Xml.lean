import Mathlib.Data.List.Basic
import Mathlib.Tactic.Common

/-! # Streams of XML tokens

A decoder yields a document as a stream of tokens and refuses one whose elements are not
nested.  Such a stream is the tokens of a forest, and the text of an element is read off
it by skipping what is nested inside.
-/

namespace RunnerScout.Xml

structure Name where
  space : String
  localName : String
deriving DecidableEq, Repr

/-- `other` is a comment, a processing instruction or a directive. -/
inductive Token where
  | startElement (name : Name)
  | endElement (name : Name)
  | charData (text : String)
  | other
deriving DecidableEq, Repr

inductive Node where
  | element (name : Name) (children : List Node)
  | text (chars : String)
  | other

/-! ## Nesting -/

mutual

def Node.tokens : Node → List Token
  | .element name children => .startElement name :: (tokens children ++ [.endElement name])
  | .text chars => [.charData chars]
  | .other => [.other]

def tokens : List Node → List Token
  | [] => []
  | node :: rest => node.tokens ++ tokens rest

end

@[simp] theorem tokens_nil : tokens [] = [] := by rw [tokens]

theorem tokens_cons (node : Node) (rest : List Node) : tokens (node :: rest) = node.tokens ++ tokens rest := by
  rw [tokens]

theorem tokens_element (name : Name) (children rest : List Node) (later : List Token) :
    tokens (.element name children :: rest) ++ later =
      .startElement name :: (tokens children ++ .endElement name :: (tokens rest ++ later)) := by
  simp [tokens, Node.tokens]

theorem tokens_text (chars : String) (rest : List Node) (later : List Token) :
    tokens (.text chars :: rest) ++ later = .charData chars :: (tokens rest ++ later) := by
  simp [tokens, Node.tokens]

theorem tokens_other (rest : List Node) (later : List Token) :
    tokens (.other :: rest) ++ later = .other :: (tokens rest ++ later) := by
  simp [tokens, Node.tokens]

/-- The check of a decoder, with the elements that are open. -/
def nested : List Name → List Token → Bool
  | [], [] => true
  | _ :: _, [] => false
  | stack, .startElement name :: rest => nested (name :: stack) rest
  | [], .endElement _ :: _ => false
  | name :: stack, .endElement closed :: rest => name = closed && nested stack rest
  | stack, .charData _ :: rest => nested stack rest
  | stack, .other :: rest => nested stack rest

/-- What stands before the end of the innermost open element. -/
inductive Closes : List Name → List Token → List Node → Prop where
  | all (forest : List Node) : Closes [] (tokens forest) forest
  | inner {name : Name} {stack : List Name} {forest : List Node} {later : List Token}
      (rest : nested stack later = true) : Closes (name :: stack) (tokens forest ++ .endElement name :: later) forest

theorem Closes.cons {stack : List Name} {stream : List Token} {forest : List Node}
    (closes : Closes stack stream forest) (node : Node) : Closes stack (node.tokens ++ stream) (node :: forest) := by
  cases closes with
  | all =>
    rw [← tokens_cons]
    exact .all _
  | inner rest =>
    rw [← List.append_assoc, ← tokens_cons]
    exact .inner rest

theorem closes_of_nested : ∀ {stream : List Token} {stack : List Name}, nested stack stream = true →
    ∃ forest, Closes stack stream forest
  | [], [], _ => ⟨[], tokens_nil ▸ .all []⟩
  | [], _ :: _, check => by simp [nested] at check
  | .startElement name :: rest, stack, check => by
    rw [nested] at check
    obtain ⟨inside, closes⟩ := closes_of_nested check
    generalize whole : rest = stream at closes
    cases closes with
    | @inner _ _ _ later outer =>
      have shorter : later.length < rest.length := by
        rw [whole, List.length_append, List.length_cons]
        omega
      obtain ⟨after, closes⟩ := closes_of_nested outer
      refine ⟨.element name inside :: after, ?_⟩
      have enclosed := closes.cons (.element name inside)
      rw [Node.tokens] at enclosed
      simpa using enclosed
  | .endElement closed :: rest, [], check => by simp [nested] at check
  | .endElement closed :: rest, name :: stack, check => by
    rw [nested, Bool.and_eq_true, decide_eq_true_eq] at check
    obtain ⟨rfl, outer⟩ := check
    have ended : Closes (name :: stack) (tokens [] ++ .endElement name :: rest) [] := .inner outer
    rw [tokens_nil] at ended
    exact ⟨[], ended⟩
  | .charData chars :: rest, stack, check => by
    rw [nested] at check
    obtain ⟨forest, closes⟩ := closes_of_nested check
    have whole := closes.cons (.text chars)
    rw [Node.tokens] at whole
    exact ⟨_, whole⟩
  | .other :: rest, stack, check => by
    rw [nested] at check
    obtain ⟨forest, closes⟩ := closes_of_nested check
    have whole := closes.cons .other
    rw [Node.tokens] at whole
    exact ⟨_, whole⟩
termination_by stream => stream.length
decreasing_by all_goals simp_all <;> omega

mutual

theorem Node.nested_tokens (node : Node) (stack : List Name) (later : List Token) :
    nested stack (node.tokens ++ later) = nested stack later := by
  cases node with
  | element name children =>
    rw [Node.tokens]
    simp only [List.cons_append, List.append_assoc, List.nil_append, nested]
    rw [nested_tokens children]
    simp [nested]
  | text chars => simp [Node.tokens, nested]
  | other => simp [Node.tokens, nested]

theorem nested_tokens (forest : List Node) (stack : List Name) (later : List Token) :
    nested stack (tokens forest ++ later) = nested stack later := by
  cases forest with
  | nil => simp
  | cons node rest => rw [tokens_cons, List.append_assoc, node.nested_tokens, nested_tokens rest]

end

/-- The streams a decoder lets through are those of forests. -/
theorem nested_iff {stream : List Token} : nested [] stream = true ↔ ∃ forest, tokens forest = stream := by
  constructor
  · intro check
    obtain ⟨forest, closes⟩ := closes_of_nested check
    cases closes with
    | all => exact ⟨forest, rfl⟩
  · rintro ⟨forest, rfl⟩
    have check := nested_tokens forest [] []
    rw [List.append_nil] at check
    rw [check, nested]

/-! ## Elements and their text -/

/-- The elements of a forest, by name and content. -/
def elements : List Node → List (Name × List Node)
  | [] => []
  | .element name children :: rest => (name, children) :: elements rest
  | _ :: rest => elements rest

/-- The pieces of text that stand directly in a forest. -/
def texts : List Node → List String
  | [] => []
  | .text chars :: rest => chars :: texts rest
  | _ :: rest => texts rest

/-- The text that stands directly in a forest. -/
def directText : List Node → String
  | [] => ""
  | .text chars :: rest => chars ++ directText rest
  | _ :: rest => directText rest

/-- Decode an element into a string from the tokens after its start: the text of nested
    elements, `depth` deep, is skipped.  Nothing comes back if the stream ends first. -/
def decodeText : Nat → List Token → String → Option (String × List Token)
  | _, [], _ => none
  | depth, .startElement _ :: rest, text => decodeText (depth + 1) rest text
  | 0, .endElement _ :: rest, text => some (text, rest)
  | depth + 1, .endElement _ :: rest, text => decodeText depth rest text
  | depth, .charData chars :: rest, text => decodeText depth rest (if depth = 0 then text ++ chars else text)
  | depth, .other :: rest, text => decodeText depth rest text

theorem decodeText_shorter : ∀ {stream : List Token} {depth : Nat} {text result : String} {rest : List Token},
    decodeText depth stream text = some (result, rest) → rest.length < stream.length
  | [], _, _, _, _, decoded => by cases decoded
  | .startElement _ :: stream, depth, text, result, rest, decoded => by
    rw [decodeText] at decoded
    exact Nat.lt_succ_of_lt (decodeText_shorter decoded)
  | .endElement _ :: stream, 0, text, result, rest, decoded => by
    cases decoded
    exact Nat.lt_succ_self _
  | .endElement _ :: stream, depth + 1, text, result, rest, decoded => by
    rw [decodeText] at decoded
    exact Nat.lt_succ_of_lt (decodeText_shorter decoded)
  | .charData _ :: stream, depth, text, result, rest, decoded => by
    rw [decodeText] at decoded
    exact Nat.lt_succ_of_lt (decodeText_shorter decoded)
  | .other :: stream, depth, text, result, rest, decoded => by
    rw [decodeText] at decoded
    exact Nat.lt_succ_of_lt (decodeText_shorter decoded)

mutual

/-- Below an element that is skipped nothing is added to the text. -/
theorem Node.decodeText_skipped (node : Node) (depth : Nat) (later : List Token) (text : String) :
    decodeText (depth + 1) (node.tokens ++ later) text = decodeText (depth + 1) later text := by
  cases node with
  | element name children =>
    rw [Node.tokens]
    simp only [List.cons_append, List.append_assoc, List.nil_append, decodeText]
    rw [decodeText_skipped children, decodeText]
  | text chars => simp [Node.tokens, decodeText]
  | other => simp [Node.tokens, decodeText]

theorem decodeText_skipped (forest : List Node) (depth : Nat) (later : List Token) (text : String) :
    decodeText (depth + 1) (tokens forest ++ later) text = decodeText (depth + 1) later text := by
  cases forest with
  | nil => simp
  | cons node rest => rw [tokens_cons, List.append_assoc, node.decodeText_skipped, decodeText_skipped rest]

end

/-- An element decodes to its direct text. -/
theorem decodeText_forest (name : Name) (later : List Token) : ∀ (forest : List Node) (text : String),
    decodeText 0 (tokens forest ++ .endElement name :: later) text = some (text ++ directText forest, later)
  | [], text => by simp [decodeText, directText]
  | .element inner children :: rest, text => by
    rw [tokens_element, decodeText, decodeText_skipped, decodeText, decodeText_forest name later rest]
    rfl
  | .text chars :: rest, text => by
    rw [tokens_text, decodeText, decodeText_forest name later rest, directText, if_pos rfl, String.append_assoc]
  | .other :: rest, text => by
    rw [tokens_other, decodeText, decodeText_forest name later rest]
    rfl

end RunnerScout.Xml
