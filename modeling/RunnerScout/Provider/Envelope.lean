import RunnerScout.Golang
import RunnerScout.Xml

/-! # The envelope of an EC2 response

Before a response is handed to the SDK its envelope is scanned token by token: one root
of the operation's name, no field twice, the field the operation is for, and a request
id.  Two copies of the scanner exist, one for the provider and one for spot prices.
-/

namespace RunnerScout.Provider

open Xml

/-- What `xml.Decoder` yields: the tokens up to the end of the data, or up to an error. -/
structure Decoder where
  tokens : List Token
  fails : Bool := false

/-! ## The scanner -/

structure Scan where
  depth : Int := 0
  roots : Nat := 0
  fields : GoMap String Nat := ∅
  requestID : String := ""
  accepted : Bool := false

/-- `fields[name]`. -/
def Scan.count (s : Scan) (name : String) : Nat := (s.fields.lookup name).getD 0

/-- `fields[name]++`. -/
def Scan.add (s : Scan) (name : String) : Scan := { s with fields := s.fields.insert name (s.count name + 1) }

/-- What is kept of a field that was decoded. -/
def Scan.keep (s : Scan) (name text : String) : Scan :=
  if name = "requestId" then { s with requestID := trimSpace text }
  else { s with accepted := trimSpace text = "true" }

def ec2Namespace : String := "http://ec2.amazonaws.com/doc/2016-11-15"

/-- The loop of both scanners, over the tokens that are left; `decoded` are the fields
    they decode out of band.  Nothing comes back where the source calls `invalid`. -/
def scan (root : String) (decoded : List String) : List Token → Scan → Option Scan
  | [], s => some s
  | .startElement name :: rest, s =>
    let s : Scan := { s with depth := s.depth + 1 }
    if s.depth = 1 then
      let s : Scan := { s with roots := s.roots + 1 }
      if s.roots ≠ 1 ∨ name.localName ≠ root ∨ trimSuffix name.space "/" ≠ ec2Namespace then none
      else scan root decoded rest s
    else if s.depth = 2 then
      let s := s.add name.localName
      if s.count name.localName > 1 then none
      else if decoded.contains name.localName then
        match element : decodeText 0 rest "" with
        | none => none
        | some (text, later) =>
          have : later.length < rest.length := decodeText_shorter element
          scan root decoded later (Scan.keep { s with depth := s.depth - 1 } name.localName text)
      else scan root decoded rest s
    else scan root decoded rest s
  | .endElement _ :: rest, s => scan root decoded rest { s with depth := s.depth - 1 }
  | .charData chars :: rest, s =>
    if s.depth = 0 ∧ trimSpace chars ≠ "" then none else scan root decoded rest s
  | .other :: rest, s => scan root decoded rest s
termination_by tokens => tokens.length

def envelope (root required : String) (decoded : List String) (message : String) (decoder : Decoder) :
    Except GoError String :=
  match scan root decoded decoder.tokens {} with
  | none => .error (.new message)
  | some s =>
    if decoder.fails ∨ s.depth ≠ 0 ∨ s.roots ≠ 1 ∨ s.requestID = "" ∨ s.count required ≠ 1
        ∨ (required = "return" ∧ !s.accepted) then
      .error (.new message)
    else .ok s.requestID

/-- The field each operation is for. -/
def requiredField : String → String
  | "DescribeInstances" => "reservationSet"
  | "DescribeVolumes" => "volumeSet"
  | "DescribeNetworkInterfaces" => "networkInterfaceSet"
  | "DescribeImages" => "imagesSet"
  | "RunInstances" => "instancesSet"
  | "TerminateInstances" => "instancesSet"
  | "DeleteVolume" => "return"
  | "DeleteNetworkInterface" => "return"
  | _ => ""

def awsEC2Envelope (decoder : Decoder) (operation : String) : Except GoError String :=
  if requiredField operation = "" then .error (.new "unsupported AWS response operation")
  else
    envelope (operation ++ "Response") (requiredField operation) ["requestId", "return"]
      "AWS response envelope incomplete or invalid" decoder

def awsSpotPriceEnvelope (decoder : Decoder) : Except GoError String :=
  envelope "DescribeSpotPriceHistoryResponse" "spotPriceHistorySet" ["requestId"]
    "AWS spot price response envelope incomplete or invalid" decoder

/-! ## The grammar -/

def Blank (text : String) : Prop := ∀ c ∈ text.toList, isSpace c = true

/-- The names of the elements that stand directly in a forest. -/
def fieldNames (forest : List Node) : List String := (elements forest).map fun field => field.1.localName

/-- A response to `operation` with its `required` field. -/
structure Envelope (operation required : String) (document : List Node) (name : Name) (content : List Node) : Prop where
  single : elements document = [(name, content)]
  outside : ∀ text ∈ texts document, Blank text
  root : name.localName = operation ++ "Response"
  space : name.space = ec2Namespace ∨ name.space = ec2Namespace ++ "/"
  distinct : (fieldNames content).Nodup
  present : required ∈ fieldNames content
  requestID : ∃ field ∈ elements content, field.1.localName = "requestId" ∧ ¬ Blank (directText field.2)
  accepted : required = "return" →
    ∃ field ∈ elements content, field.1.localName = "return" ∧ trimSpace (directText field.2) = "true"

/-! ## Scanning a forest -/

section Scanning

variable {root : String} {decoded : List String}

mutual

/-- Below the fields of the root nothing is looked at. -/
theorem scan_inner_node (node : Node) (later : List Token) {s : Scan} (deep : 2 ≤ s.depth) :
    scan root decoded (node.tokens ++ later) s = scan root decoded later s := by
  cases node with
  | element name children =>
    rw [Node.tokens, List.cons_append, List.append_assoc, scan]
    dsimp only
    rw [if_neg (by omega), if_neg (by omega), scan_inner children _ (by dsimp only; omega), List.cons_append, scan]
    simp
  | text chars =>
    rw [Node.tokens, List.cons_append, scan, if_neg (by omega), List.nil_append]
  | other => rw [Node.tokens, List.cons_append, scan, List.nil_append]

theorem scan_inner (forest : List Node) (later : List Token) {s : Scan} (deep : 2 ≤ s.depth) :
    scan root decoded (tokens forest ++ later) s = scan root decoded later s := by
  cases forest with
  | nil => rw [tokens_nil, List.nil_append]
  | cons node rest => rw [tokens_cons, List.append_assoc, scan_inner_node node _ deep, scan_inner rest later deep]

end

/-- The state in which the fields of the root are read. -/
def Scan.opened : Scan := { depth := 1, roots := 1 }

/-- A field of the root that was not counted before. -/
def Scan.field (s : Scan) (decoded : List String) (name text : String) : Scan :=
  if decoded.contains name then (s.add name).keep name text else s.add name

/-- What the loop makes of the fields of the root. -/
def readFields (decoded : List String) : List (Name × List Node) → Scan → Option Scan
  | [], s => some s
  | (name, children) :: rest, s =>
    if s.count name.localName > 0 then none
    else readFields decoded rest (s.field decoded name.localName (directText children))

theorem Scan.count_add (s : Scan) (name other : String) :
    (s.add name).count other = if other = name then s.count name + 1 else s.count other := by
  unfold Scan.count Scan.add
  by_cases same : other = name
  · subst same
    simp [Scan.count]
  · simp [AList.lookup_insert_ne same, same]

theorem Scan.count_field (s : Scan) (name text other : String) :
    (s.field decoded name text).count other = if other = name then s.count name + 1 else s.count other := by
  rw [← Scan.count_add]
  unfold Scan.field Scan.keep
  repeat' split
  all_goals rfl

theorem Scan.depth_field (s : Scan) (name text : String) : (s.field decoded name text).depth = s.depth := by
  unfold Scan.field Scan.keep
  repeat' split
  all_goals rfl

theorem Scan.roots_field (s : Scan) (name text : String) : (s.field decoded name text).roots = s.roots := by
  unfold Scan.field Scan.keep
  repeat' split
  all_goals rfl

theorem readFields_frame : ∀ {fields : List (Name × List Node)} {s final : Scan},
    readFields decoded fields s = some final → final.depth = s.depth ∧ final.roots = s.roots
  | [], s, final, read => by
    cases read
    exact ⟨rfl, rfl⟩
  | (name, children) :: rest, s, final, read => by
    rw [readFields] at read
    split at read
    · cases read
    · have later := readFields_frame read
      rwa [Scan.depth_field, Scan.roots_field] at later

/-- One field of the root. -/
theorem scan_field (name : Name) (children : List Node) (later : List Token) {s : Scan} (level : s.depth = 1) :
    scan root decoded (.startElement name :: (tokens children ++ .endElement name :: later)) s =
      if s.count name.localName > 0 then none
      else scan root decoded later (s.field decoded name.localName (directText children)) := by
  obtain ⟨depth, roots, fields, requestID, accepted⟩ := s
  subst level
  rw [scan]
  dsimp only
  rw [if_neg (by decide), if_pos (by decide)]
  by_cases again : Scan.count ⟨1, roots, fields, requestID, accepted⟩ name.localName > 0
  · rw [if_pos again, if_pos]
    rw [Scan.count_add, if_pos rfl]
    exact Nat.succ_lt_succ again
  rw [if_neg again, if_neg, Scan.field]
  · split
    · split
      · rename_i element
        rw [decodeText_forest] at element
        cases element
      · rename_i text after element
        rw [decodeText_forest] at element
        cases element
        rw [String.empty_append]
        rfl
    · rw [scan_inner children _ (show (2 : Int) ≤ 1 + 1 by decide), scan]
      rfl
  · rw [Scan.count_add, if_pos rfl]
    exact fun twice => again (Nat.lt_of_succ_lt_succ twice)

theorem scan_fields (later : List Token) : ∀ (forest : List Node) {s : Scan}, s.depth = 1 →
    scan root decoded (tokens forest ++ later) s =
      (readFields decoded (elements forest) s).bind (scan root decoded later)
  | [], s, _ => by rw [tokens_nil, List.nil_append, elements, readFields, Option.bind_some]
  | .element name children :: rest, s, level => by
    rw [tokens_element, scan_field name children _ level, elements, readFields]
    split
    · rfl
    · rw [scan_fields later rest (by rw [Scan.depth_field, level])]
  | .text chars :: rest, s, level => by
    rw [tokens_text, scan, if_neg (by omega), scan_fields later rest level]
    rfl
  | .other :: rest, s, level => by
    rw [tokens_other, scan, scan_fields later rest level]
    rfl

theorem scan_root_end {name : Name} (later : List Token) {s : Scan} (level : s.depth = 1) :
    scan root decoded (.endElement name :: later) s = scan root decoded later { s with depth := 0 } := by
  rw [scan, level]
  rfl

/-- After the root only blank text is left over. -/
theorem scan_after : ∀ (forest : List Node) {s final : Scan}, s.depth = 0 → s.roots = 1 →
    (scan root decoded (tokens forest) s = some final ↔
      elements forest = [] ∧ (∀ text ∈ texts forest, Blank text) ∧ final = s)
  | [], s, final, _, _ => by
    rw [tokens_nil, scan]
    simp [elements, texts, eq_comm]
  | .element name children :: rest, s, final, level, once => by
    have stream := tokens_element name children rest []
    rw [List.append_nil] at stream
    rw [stream, scan]
    simp [level, once, elements]
  | .text chars :: rest, s, final, level, once => by
    have stream := tokens_text chars rest []
    rw [List.append_nil, List.append_nil] at stream
    rw [stream, scan]
    by_cases blank : trimSpace chars = ""
    · rw [if_neg (by simp [blank]), scan_after rest level once, texts, List.forall_mem_cons]
      have first : Blank chars := trimSpace_eq_empty.mp blank
      simp [elements, first]
    · rw [if_pos ⟨level, blank⟩, texts, List.forall_mem_cons]
      have first : ¬ Blank chars := fun all => blank (trimSpace_eq_empty.mpr all)
      simp [first]
  | .other :: rest, s, final, level, once => by
    have stream := tokens_other rest []
    rw [List.append_nil, List.append_nil] at stream
    rw [stream, scan, scan_after rest level once]
    rfl

/-- The scan of a whole document that has found a root. -/
theorem scan_document : ∀ (document : List Node) (final : Scan), final.roots = 1 →
    (scan root decoded (tokens document) {} = some final ↔
      ∃ name content, elements document = [(name, content)] ∧ (∀ text ∈ texts document, Blank text) ∧
        name.localName = root ∧ trimSuffix name.space "/" = ec2Namespace ∧
        ∃ s, readFields decoded (elements content) Scan.opened = some s ∧ final = { s with depth := 0 })
  | [], final, once => by
    rw [tokens_nil, scan]
    constructor
    · rintro ⟨⟩
      cases once
    · rintro ⟨name, content, ⟨⟩, _⟩
  | .element name children :: rest, final, once => by
    have stream := tokens_element name children rest []
    rw [List.append_nil] at stream
    rw [stream, scan]
    dsimp only
    rw [if_pos (by decide)]
    split
    · rename_i wrong
      constructor
      · rintro ⟨⟩
      · rintro ⟨only, content, single, _, named, space, _⟩
        obtain ⟨⟨⟩, _⟩ := List.cons_eq_cons.mp single
        simp [named, space] at wrong
    · rename_i right
      simp only [ne_eq, not_or, Decidable.not_not] at right
      obtain ⟨_, named, space⟩ := right
      rw [scan_fields _ children rfl]
      constructor
      · intro scanned
        obtain ⟨s, read, scanned⟩ := Option.bind_eq_some_iff.mp scanned
        obtain ⟨level, roots⟩ := readFields_frame read
        rw [List.append_nil, scan_root_end _ level] at scanned
        obtain ⟨last, outside, rfl⟩ := (scan_after rest (by rfl) (by exact roots)).mp scanned
        exact ⟨name, children, by rw [elements, last], outside, named, space, s, read, rfl⟩
      · rintro ⟨only, content, single, outside, _, _, s, read, rfl⟩
        obtain ⟨⟨⟩, last⟩ := List.cons_eq_cons.mp single
        obtain ⟨level, roots⟩ := readFields_frame read
        refine Option.bind_eq_some_iff.mpr ⟨s, read, ?_⟩
        rw [List.append_nil, scan_root_end _ level]
        exact (scan_after rest (by rfl) (by exact roots)).mpr ⟨last, outside, rfl⟩
  | .text chars :: rest, final, once => by
    have stream := tokens_text chars rest []
    rw [List.append_nil, List.append_nil] at stream
    rw [stream, scan]
    by_cases blank : trimSpace chars = ""
    · rw [if_neg (by simp [blank]), scan_document rest final once, texts, List.forall_mem_cons]
      have first : Blank chars := trimSpace_eq_empty.mp blank
      simp only [elements, first, true_and]
    · rw [if_pos ⟨rfl, blank⟩, texts, List.forall_mem_cons]
      have first : ¬ Blank chars := fun all => blank (trimSpace_eq_empty.mpr all)
      simp [first]
  | .other :: rest, final, once => by
    have stream := tokens_other rest []
    rw [List.append_nil, List.append_nil] at stream
    rw [stream, scan, scan_document rest final once]
    rfl

end Scanning

/-! ## Fields -/

section Fields

variable {decoded : List String}

/-- The state after the fields of the root. -/
def fieldsRead (decoded : List String) (fields : List (Name × List Node)) (s : Scan) : Scan :=
  fields.foldl (fun s field => s.field decoded field.1.localName (directText field.2)) s

theorem readFields_iff : ∀ {fields : List (Name × List Node)} {s final : Scan},
    readFields decoded fields s = some final ↔ (fields.map fun field => field.1.localName).Nodup ∧
      (∀ field ∈ fields, s.count field.1.localName = 0) ∧ final = fieldsRead decoded fields s
  | [], s, final => by simp [readFields, fieldsRead, eq_comm]
  | (name, children) :: rest, s, final => by
    rw [readFields, List.map_cons, List.nodup_cons, List.forall_mem_cons]
    split
    · rename_i again
      constructor
      · rintro ⟨⟩
      · rintro ⟨_, ⟨fresh, _⟩, _⟩
        rw [fresh] at again
        cases again
    · rename_i fresh
      have fresh : s.count name.localName = 0 := by omega
      rw [readFields_iff]
      simp only [Scan.count_field]
      constructor
      · rintro ⟨distinct, others, rfl⟩
        have apart (field : Name × List Node) (member : field ∈ rest) : field.1.localName ≠ name.localName := by
          intro same
          have counted := others field member
          rw [if_pos same] at counted
          cases counted
        refine ⟨⟨?_, distinct⟩, ⟨fresh, fun field member => ?_⟩, rfl⟩
        · intro again
          obtain ⟨field, member, same⟩ := List.mem_map.mp again
          exact apart field member same
        · have counted := others field member
          rwa [if_neg (apart field member)] at counted
      · rintro ⟨⟨new, distinct⟩, ⟨_, others⟩, rfl⟩
        refine ⟨distinct, fun field member => ?_, rfl⟩
        rw [if_neg, others field member]
        rintro same
        exact new (List.mem_map.mpr ⟨field, member, same⟩)

theorem count_read (name : String) : ∀ (fields : List (Name × List Node)) (s : Scan),
    (fieldsRead decoded fields s).count name =
      s.count name + (fields.map fun field => field.1.localName).count name
  | [], s => rfl
  | (other, children) :: rest, s => by
    have step : fieldsRead decoded ((other, children) :: rest) s =
      fieldsRead decoded rest (s.field decoded other.localName (directText children)) := rfl
    rw [step, count_read name rest, Scan.count_field, List.map_cons, List.count_cons]
    by_cases same : name = other.localName
    · subst same
      simp only [if_true, beq_self_eq_true]
      omega
    · rw [if_neg same, if_neg (by simpa using Ne.symm same), Nat.add_zero]

/-- A value that only the field `name` sets is in the end what that field says, or what
    it was when there is no such field. -/
theorem value_read {β : Type} {value : Scan → β} {name : String} {given : String → β}
    (sets : ∀ s other text, value (s.field decoded other text) = if other = name then given text else value s)
    (P : β → Prop) : ∀ (fields : List (Name × List Node)) (s : Scan),
    (fields.map fun field => field.1.localName).Nodup →
      (P (value (fieldsRead decoded fields s)) ↔
        (∃ field ∈ fields, field.1.localName = name ∧ P (given (directText field.2))) ∨
          (name ∉ fields.map fun field => field.1.localName) ∧ P (value s))
  | [], s, _ => by simp [fieldsRead]
  | (other, children) :: rest, s, distinct => by
    rw [List.map_cons, List.nodup_cons] at distinct
    have step : fieldsRead decoded ((other, children) :: rest) s =
      fieldsRead decoded rest (s.field decoded other.localName (directText children)) := rfl
    rw [step, value_read sets P rest _ distinct.2, sets, List.exists_mem_cons_iff, List.map_cons, List.mem_cons]
    by_cases same : other.localName = name
    · subst same
      have absent : ¬ ∃ field ∈ rest, field.1.localName = other.localName ∧ P (given (directText field.2)) := by
        rintro ⟨field, member, again, _⟩
        exact distinct.1 (List.mem_map.mpr ⟨field, member, again⟩)
      simp [absent, distinct.1]
    · simp [same, Ne.symm same]

end Fields

/-! ## The envelope -/

theorem requestID_field {decoded : List String} (decodes : "requestId" ∈ decoded) (s : Scan) (name text : String) :
    (s.field decoded name text).requestID = if name = "requestId" then trimSpace text else s.requestID := by
  unfold Scan.field Scan.keep
  by_cases same : name = "requestId"
  · rw [same, if_pos (List.contains_iff_mem.mpr decodes), if_pos rfl, if_pos rfl]
  · rw [if_neg same, if_neg same]
    split
    all_goals rfl

theorem accepted_field (s : Scan) (name text : String) :
    (s.field ["requestId", "return"] name text).accepted =
      if name = "return" then decide (trimSpace text = "true") else s.accepted := by
  unfold Scan.field Scan.keep
  by_cases same : name = "return"
  · subst same
    rfl
  · rw [if_neg same]
    split
    · rename_i decodes
      rw [if_pos (by simpa [same] using decodes)]
      rfl
    · rfl

section Root

variable {decoded : List String} {fields : List (Name × List Node)}

theorem count_root (distinct : (fields.map fun field => field.1.localName).Nodup) (name : String) :
    (fieldsRead decoded fields Scan.opened).count name = 1 ↔
      name ∈ fields.map fun field => field.1.localName := by
  have none : Scan.opened.count name = 0 := rfl
  rw [count_read, none, Nat.zero_add]
  constructor
  · intro counted
    rw [← List.count_pos_iff, counted]
    exact Nat.one_pos
  · exact List.count_eq_one_of_mem distinct

theorem requestID_root (decodes : "requestId" ∈ decoded) (distinct : (fields.map fun field => field.1.localName).Nodup) :
    (fieldsRead decoded fields Scan.opened).requestID ≠ "" ↔
      ∃ field ∈ fields, field.1.localName = "requestId" ∧ ¬ Blank (directText field.2) := by
  rw [value_read (requestID_field decodes) (· ≠ "") fields _ distinct]
  simp only [Scan.opened, ne_eq, trimSpace_eq_empty, not_true_eq_false, and_false, or_false]
  rfl

theorem accepted_root (distinct : (fields.map fun field => field.1.localName).Nodup) :
    (fieldsRead ["requestId", "return"] fields Scan.opened).accepted = true ↔
      ∃ field ∈ fields, field.1.localName = "return" ∧ trimSpace (directText field.2) = "true" := by
  rw [value_read accepted_field (· = true) fields _ distinct]
  simp only [Scan.opened, decide_eq_true_eq, Bool.false_eq_true, and_false, or_false]

end Root

theorem space_iff {space : String} :
    trimSuffix space "/" = ec2Namespace ↔ space = ec2Namespace ∨ space = ec2Namespace ++ "/" :=
  trimSuffix_eq_iff (by decide)

/-- Both scanners accept the same grammar. -/
theorem envelope_ok_iff {operation required message : String} {decoded : List String}
    (decodes : "requestId" ∈ decoded) (accepts : required = "return" → decoded = ["requestId", "return"])
    (document : List Node) :
    (∃ id, envelope (operation ++ "Response") required decoded message ⟨tokens document, false⟩ = .ok id) ↔
      ∃ name content, Envelope operation required document name content := by
  constructor
  · rintro ⟨id, ok⟩
    unfold envelope at ok
    split at ok
    · cases ok
    · rename_i s scanned
      split at ok
      · cases ok
      · rename_i complete
        simp only [Bool.false_eq_true, false_or, not_or, not_and, Decidable.not_not] at complete
        obtain ⟨level, once, identified, counted, accepted⟩ := complete
        obtain ⟨name, content, single, outside, named, space, fields, read, rfl⟩ :=
          (scan_document document s once).mp scanned
        obtain ⟨distinct, _, rfl⟩ := readFields_iff.mp read
        refine ⟨name, content, single, outside, named, space_iff.mp space, distinct,
          (count_root distinct required).mp counted, (requestID_root decodes distinct).mp identified, ?_⟩
        intro isReturn
        have both := accepts isReturn
        subst both
        exact (accepted_root distinct).mp (by simpa using accepted isReturn)
  · rintro ⟨name, content, single, outside, named, space, distinct, present, requestID, accepted⟩
    have read : readFields decoded (elements content) Scan.opened =
        some (fieldsRead decoded (elements content) Scan.opened) :=
      readFields_iff.mpr ⟨distinct, fun _ _ => rfl, rfl⟩
    have once := (readFields_frame read).2
    have scanned := (scan_document document
      { fieldsRead decoded (elements content) Scan.opened with depth := 0 } once).mpr
      ⟨name, content, single, outside, named, space_iff.mpr space, _, read, rfl⟩
    refine ⟨(fieldsRead decoded (elements content) Scan.opened).requestID, ?_⟩
    unfold envelope
    rw [scanned]
    dsimp only
    rw [if_neg]
    simp only [Bool.false_eq_true, false_or, not_or, not_and, Decidable.not_not]
    refine ⟨trivial, once, (requestID_root decodes distinct).mpr requestID, (count_root distinct required).mpr present, ?_⟩
    intro isReturn
    have both := accepts isReturn
    subst both
    simpa using (accepted_root distinct).mpr (accepted isReturn)

/-- The token streams that are well nested are those of the forests, and over them both
    scanners accept exactly the envelopes of their operations. -/
theorem awsEnvelopes_accept_exactly :
    (∀ stream : List Token, nested [] stream = true ↔ ∃ document, tokens document = stream) ∧
      ∀ document : List Node,
        (∀ operation : String, (∃ id, awsEC2Envelope ⟨tokens document, false⟩ operation = .ok id) ↔
          requiredField operation ≠ "" ∧
            ∃ name content, Envelope operation (requiredField operation) document name content) ∧
        ((∃ id, awsSpotPriceEnvelope ⟨tokens document, false⟩ = .ok id) ↔
          ∃ name content, Envelope "DescribeSpotPriceHistory" "spotPriceHistorySet" document name content) := by
  refine ⟨fun stream => nested_iff, fun document => ⟨fun operation => ?_, ?_⟩⟩
  · unfold awsEC2Envelope
    by_cases supported : requiredField operation = ""
    · simp [supported]
    · rw [if_neg supported, envelope_ok_iff (by decide) (fun _ => rfl) document]
      exact (and_iff_right supported).symm
  · have spot : "DescribeSpotPriceHistory" ++ "Response" = "DescribeSpotPriceHistoryResponse" := by decide
    unfold awsSpotPriceEnvelope
    rw [← spot]
    exact envelope_ok_iff (by decide) (fun same => by simp at same) document

end RunnerScout.Provider
