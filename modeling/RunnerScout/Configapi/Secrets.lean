import RunnerScout.Configapi.Calls

/-! # Resolving Secrets

`resolveSecrets` reads the Secrets a compiled configuration refers to, each of them
once, and then reads all of them a second time.  Their data is told apart by a hash
over its sorted keys, every key and every value followed by a zero byte.
-/

namespace RunnerScout.Configapi

open Interaction

def errChanged : GoError := .new "configuration dependencies changed during snapshot collection"

/-! ## Bytes -/

/-- The encodings of the runes `unicode.IsSpace` accepts. -/
def spaceEncodings : List (List UInt8) :=
  ([0x09, 0x0a, 0x0b, 0x0c, 0x0d, 0x20, 0x85, 0xa0, 0x1680, 0x2028, 0x2029, 0x202f, 0x205f, 0x3000] ++
    (List.range 11).map (0x2000 + ·)).map fun rune => String.utf8EncodeChar (Char.ofNat rune)

/-- Drop units from the front, at most as many as `fuel`. -/
def stripUnits (units : List (List UInt8)) : Nat → List UInt8 → List UInt8
  | 0, bytes => bytes
  | fuel + 1, bytes =>
    match units.find? fun unit => unit.isPrefixOf bytes with
    | none => bytes
    | some unit => stripUnits units fuel (bytes.drop unit.length)

/-- `strings.TrimSpace` of a string that need not be valid UTF-8. -/
def trimSpaceBytes (bytes : List UInt8) : List UInt8 :=
  let front := stripUnits spaceEncodings bytes.length bytes
  (stripUnits (spaceEncodings.map List.reverse) front.length front.reverse).reverse

def keyBytes (key : String) : List UInt8 := key.toList.flatMap String.utf8EncodeChar

/-- What `secretDataHash` writes to its hash. -/
def secretDocument (data : GoMap String (List UInt8)) : List UInt8 :=
  (data.keys.insertionSort (· ≤ ·)).flatMap fun key => keyBytes key ++ [0] ++ (data.lookup key).getD [] ++ [0]

/-- `sha256` stands for the digest in hexadecimal. -/
def secretDataHash (sha256 : List UInt8 → String) (data : GoMap String (List UInt8)) : String :=
  sha256 (secretDocument data)

/-! ## Reading -/

section Resolve

variable (checks : Checks) (sha256 : List UInt8 → String)

def secretValue (object : Secret) (key : String) : Except GoError (List UInt8) :=
  match object.data.lookup key with
  | none => .error (.new "referenced Secret key missing or empty")
  | some value => if value.length = 0 then .error (.new "referenced Secret key missing or empty") else .ok value

/-- The Secret of a name, from those already read or from the API. -/
def fetchSecret (space : String) (objects : GoMap String Secret) (name : String) :
    Fallible (Secret × GoMap String Secret) :=
  match objects.lookup name with
  | some object => pure (object, objects)
  | none => do
    let object ← (Attempt.of (ask (.getSecret name))).orElse (.new "referenced Secret unavailable")
    if object.metadata.space ≠ space ∨ object.metadata.name ≠ name ∨ object.metadata.uid = ""
        ∨ object.metadata.resourceVersion = "" ∨ object.metadata.deletionTimestamp ≠ none then
      throw (.new "referenced Secret identity invalid")
    else return (object, objects.insert name object)

/-- The closure `read` of `resolveSecrets`; it returns the objects it knows then. -/
def readSecret (space : String) (objects : GoMap String Secret) (ref : SecretKeyReference) :
    Fallible (List UInt8 × GoMap String Secret) := do
  Attempt.result (secret checks ref)
  let fetched ← fetchSecret space objects ref.name
  let value ← Attempt.result (secretValue fetched.1 ref.key)
  return (value, fetched.2)

def readGitHub (resolved : Resolved) (objects : GoMap String Secret) : Fallible (List UInt8 × GoMap String Secret) := do
  let read ← readSecret checks resolved.config.space objects resolved.auth.secretRef
  if resolved.auth.mode = "pat" then
    let token := trimSpaceBytes read.1
    if token.length = 0 ∨ token.any (fun byte => byte = 0 ∨ byte = 13 ∨ byte = 10) then
      throw (.new "invalid GitHub token")
    else return (token, read.2)
  else return read

/-- The loop over the variables of one provider. -/
def readVariables (space kind : String) (refs : GoMap String SecretKeyReference) :
    List String → GoMap String (List UInt8) → GoMap String Secret →
      Fallible (GoMap String (List UInt8) × GoMap String Secret)
  | [], values, objects => return (values, objects)
  | name :: rest, values, objects =>
    match refs.lookup name with
    | none => readVariables space kind refs rest values objects
    | some ref =>
      if !credentialVariable kind name then throw (.new "unsupported provider credential variable")
      else do
        let read ← readSecret checks space objects ref
        if read.1.contains 0 then throw (.new "invalid provider credential value")
        else readVariables space kind refs rest (values.insert name read.1) read.2

/-- The loop over the providers. -/
def readProviders (resolved : Resolved) :
    List String → GoMap String (GoMap String (List UInt8)) → GoMap String Secret →
      Fallible (GoMap String (GoMap String (List UInt8)) × GoMap String Secret)
  | [], providers, objects => return (providers, objects)
  | name :: rest, providers, objects =>
    match resolved.credentials.lookup name with
    | none => readProviders resolved rest providers objects
    | some refs =>
      match resolved.config.providers.lookup name with
      | none => throw (.new "credential provider is not configured")
      | some config => do
        let order ← Attempt.lift (ask (.rangeOrder refs.keys))
        let read ← readVariables checks resolved.config.space config.kind refs order ∅ objects
        readProviders resolved rest (providers.insert name read.1) read.2

def secretRevision (name : String) (object : Secret) : SecretRevision where
  name := name
  uid := object.metadata.uid
  resourceVersion := object.metadata.resourceVersion
  contentHash := secretDataHash sha256 object.data

/-- The second reading of every Secret that was read. -/
def recheckSecrets (objects : GoMap String Secret) : List String → Fallible (List SecretRevision)
  | [] => return []
  | name :: rest =>
    match objects.lookup name with
    | none => recheckSecrets objects rest
    | some old => do
      let current ← (Attempt.of (ask (.getSecret name))).orElse (.new "referenced Secret recheck failed")
      if current.metadata.space ≠ old.metadata.space ∨ current.metadata.name ≠ old.metadata.name
          ∨ current.metadata.uid ≠ old.metadata.uid
          ∨ current.metadata.resourceVersion ≠ old.metadata.resourceVersion
          ∨ current.metadata.deletionTimestamp ≠ none then
        throw errChanged
      else
        let later ← recheckSecrets objects rest
        return secretRevision sha256 name current :: later

def byName (a b : SecretRevision) : Prop := a.name ≤ b.name

instance : DecidableRel byName := fun a b => inferInstanceAs (Decidable (a.name ≤ b.name))

def resolveSecretsOf (resolved : Resolved) (github : Bool) : Fallible Credentials := do
  let first ← if github then readGitHub checks resolved ∅ else pure ([], ∅)
  let order ← Attempt.lift (ask (.rangeOrder resolved.credentials.keys))
  let read ← readProviders checks resolved order ∅ first.2
  let order ← Attempt.lift (ask (.rangeOrder read.2.keys))
  let revisions ← recheckSecrets sha256 read.2 order
  return { gitHub := first.1, providers := read.1, revisions := revisions.insertionSort byName }

def resolveSecrets (resolved : Resolved) : Fallible Credentials := resolveSecretsOf checks sha256 resolved true

end Resolve

/-! ## What the hash tells apart -/

/-- The characters of the keys of a Secret. -/
def keyAlphabet : String := "-._abcdefghijklmnopqrstuvwxyzABCDEFGHIJKLMNOPQRSTUVWXYZ0123456789"

def KeyTexts (data : GoMap String (List UInt8)) : Prop := ∀ key ∈ data, onlyFrom keyAlphabet key = true

instance (data : GoMap String (List UInt8)) : Decidable (KeyTexts data) :=
  inferInstanceAs (Decidable (∀ key ∈ data.keys, onlyFrom keyAlphabet key = true))

def ZeroFree (data : GoMap String (List UInt8)) : Prop := ∀ key value, data.lookup key = some value → 0 ∉ value

/-- Where two texts that end at a zero byte agree with all that follows, they agree. -/
theorem append_zero_inj : ∀ {first second rest others : List UInt8}, 0 ∉ first → 0 ∉ second →
    first ++ 0 :: rest = second ++ 0 :: others → first = second ∧ rest = others
  | [], [], _, _, _, _, same => ⟨rfl, (List.cons.inj same).2⟩
  | [], byte :: _, _, _, _, free, same => absurd (List.cons.inj same).1 fun zero => free (zero ▸ List.mem_cons_self)
  | byte :: _, [], _, _, free, _, same =>
    absurd (List.cons.inj same).1 fun zero => free (zero ▸ List.mem_cons_self)
  | byte :: first, other :: second, _, _, free, free', same => by
    obtain ⟨head, tail⟩ := List.cons.inj same
    obtain ⟨bytes, rest⟩ := append_zero_inj (fun zero => free (List.mem_cons_of_mem _ zero))
      (fun zero => free' (List.mem_cons_of_mem _ zero)) tail
    exact ⟨by rw [head, bytes], rest⟩

/-- Pairs of zero-terminated texts, one after the other. -/
def pairsDocument (pairs : List (List UInt8 × List UInt8)) : List UInt8 :=
  pairs.flatMap fun pair => pair.1 ++ [0] ++ pair.2 ++ [0]

theorem pairsDocument_cons (key value : List UInt8) (rest : List (List UInt8 × List UInt8)) :
    pairsDocument ((key, value) :: rest) = key ++ 0 :: (value ++ 0 :: pairsDocument rest) := by
  simp [pairsDocument]

theorem pairsDocument_inj : ∀ {pairs others : List (List UInt8 × List UInt8)},
    (∀ pair ∈ pairs, 0 ∉ pair.1 ∧ 0 ∉ pair.2) → (∀ pair ∈ others, 0 ∉ pair.1 ∧ 0 ∉ pair.2) →
    pairsDocument pairs = pairsDocument others → pairs = others
  | [], [], _, _, _ => rfl
  | [], (key, value) :: rest, _, _, same => by
    rw [pairsDocument_cons] at same
    exact absurd same.symm (List.append_ne_nil_of_right_ne_nil _ (List.cons_ne_nil _ _))
  | (key, value) :: rest, [], _, _, same => by
    rw [pairsDocument_cons] at same
    exact absurd same (List.append_ne_nil_of_right_ne_nil _ (List.cons_ne_nil _ _))
  | (key, value) :: rest, (key', value') :: rest', free, free', same => by
    rw [pairsDocument_cons, pairsDocument_cons] at same
    obtain ⟨here, later⟩ := List.forall_mem_cons.mp free
    obtain ⟨here', later'⟩ := List.forall_mem_cons.mp free'
    obtain ⟨keys, values⟩ := append_zero_inj here.1 here'.1 same
    obtain ⟨values, rest⟩ := append_zero_inj here.2 here'.2 values
    rw [show key = key' from keys, show value = value' from values, pairsDocument_inj later later' rest]

section Regrouping

variable {pairs others : List (List UInt8 × List UInt8)}

/-- An entry is written into the value of the one before it. -/
inductive Absorbs : List (List UInt8 × List UInt8) → List (List UInt8 × List UInt8) → Prop
  | step before key value next later after : Absorbs (before ++ (key, value) :: (next, later) :: after)
      (before ++ (key, value ++ 0 :: (next ++ 0 :: later)) :: after)

theorem pairsDocument_absorbs (regrouped : Relation.EqvGen Absorbs pairs others) :
    pairsDocument pairs = pairsDocument others := by
  induction regrouped with
  | rel _ _ absorbs => cases absorbs; simp [pairsDocument]
  | refl => rfl
  | symm _ _ _ same => exact same.symm
  | trans _ _ _ _ _ first second => exact first.trans second

/-- All entries can be written into the first one. -/
theorem absorbs_all (key : List UInt8) : ∀ (rest : List (List UInt8 × List UInt8)) (value : List UInt8),
    ∃ all, Relation.EqvGen Absorbs ((key, value) :: rest) [(key, all)]
  | [], value => ⟨value, .refl _⟩
  | (next, later) :: rest, value => by
    obtain ⟨all, regrouped⟩ := absorbs_all key rest (value ++ 0 :: (next ++ 0 :: later))
    exact ⟨all, .trans _ _ _ (.rel _ _ (.step [] key value next later rest)) regrouped⟩

/-- Documents are the same for entries regrouped, and for no others. -/
theorem pairsDocument_eq_iff (free : ∀ pair ∈ pairs, 0 ∉ pair.1)
    (free' : ∀ pair ∈ others, 0 ∉ pair.1) :
    pairsDocument pairs = pairsDocument others ↔ Relation.EqvGen Absorbs pairs others := by
  refine ⟨fun same => ?_, pairsDocument_absorbs⟩
  match pairs, others with
  | [], [] => exact .refl _
  | [], (key, value) :: rest | (key, value) :: rest, [] => simp [pairsDocument] at same
  | (key, value) :: rest, (key', value') :: rest' =>
    obtain ⟨all, regrouped⟩ := absorbs_all key rest value
    obtain ⟨all', regrouped'⟩ := absorbs_all key' rest' value'
    rw [pairsDocument_absorbs regrouped, pairsDocument_absorbs regrouped', pairsDocument_cons, pairsDocument_cons] at same
    obtain ⟨keys, values⟩ := append_zero_inj (free _ List.mem_cons_self) (free' _ List.mem_cons_self) same
    obtain rfl : key = key' := keys
    obtain rfl : all = all' := List.append_cancel_right values
    exact .trans _ _ _ regrouped (.symm _ _ regrouped')

end Regrouping

section Keys

/-- A character of a key is one byte of its own, and not a zero. -/
theorem utf8EncodeChar_key : ∀ c ∈ keyAlphabet.toList,
    String.utf8EncodeChar c = [UInt8.ofNat c.toNat] ∧ UInt8.ofNat c.toNat ≠ 0 ∧
      Char.ofNat (UInt8.ofNat c.toNat).toNat = c := by
  have all : keyAlphabet.toList.all (fun c => decide (String.utf8EncodeChar c = [UInt8.ofNat c.toNat] ∧
      UInt8.ofNat c.toNat ≠ 0 ∧ Char.ofNat (UInt8.ofNat c.toNat).toNat = c)) = true := by decide +kernel
  exact fun c member => of_decide_eq_true (List.all_eq_true.mp all c member)

theorem mem_alphabet {key : String} (text : onlyFrom keyAlphabet key = true) :
    ∀ c ∈ key.toList, c ∈ keyAlphabet.toList := by
  intro c member
  exact List.contains_iff_mem.mp (List.all_eq_true.mp text c member)

theorem keyBytes_eq {key : String} (text : onlyFrom keyAlphabet key = true) :
    keyBytes key = key.toList.map fun c => UInt8.ofNat c.toNat := by
  unfold keyBytes
  rw [List.map_eq_flatMap]
  exact List.flatMap_congr fun c member => (utf8EncodeChar_key c (mem_alphabet text c member)).1

theorem zero_notMem_keyBytes {key : String} (text : onlyFrom keyAlphabet key = true) : 0 ∉ keyBytes key := by
  rw [keyBytes_eq text]
  intro zero
  obtain ⟨c, member, isZero⟩ := List.mem_map.mp zero
  exact (utf8EncodeChar_key c (mem_alphabet text c member)).2.1 isZero

theorem keyBytes_inj {key other : String} (text : onlyFrom keyAlphabet key = true)
    (text' : onlyFrom keyAlphabet other = true) (same : keyBytes key = keyBytes other) : key = other := by
  have back {key : String} (text : onlyFrom keyAlphabet key = true) :
      ((keyBytes key).map fun byte => Char.ofNat byte.toNat) = key.toList := by
    rw [keyBytes_eq text, List.map_map]
    conv_rhs => rw [← List.map_id key.toList]
    exact List.map_congr_left fun c member => (utf8EncodeChar_key c (mem_alphabet text c member)).2.2
  rw [← String.toList_inj, ← back text, same, back text']

end Keys

section Data

variable {data other : GoMap String (List UInt8)}

/-- The entries of a Secret, in the order they are hashed. -/
def sortedEntries (data : GoMap String (List UInt8)) : List (List UInt8 × List UInt8) :=
  (data.keys.insertionSort (· ≤ ·)).map fun key => (keyBytes key, (data.lookup key).getD [])

theorem secretDocument_eq : secretDocument data = pairsDocument (sortedEntries data) := by
  unfold secretDocument pairsDocument sortedEntries
  rw [List.flatMap_map]

theorem sortedEntries_keys (texts : KeyTexts data) : ∀ pair ∈ sortedEntries data, 0 ∉ pair.1 := by
  intro pair member
  obtain ⟨key, listed, rfl⟩ := List.mem_map.mp member
  exact zero_notMem_keyBytes (texts key (AList.mem_keys.mpr ((List.mem_insertionSort _).mp listed)))

theorem sortedEntries_zeroFree (texts : KeyTexts data) (free : ZeroFree data) :
    ∀ pair ∈ sortedEntries data, 0 ∉ pair.1 ∧ 0 ∉ pair.2 := by
  intro pair member
  refine ⟨sortedEntries_keys texts pair member, ?_⟩
  obtain ⟨key, listed, rfl⟩ := List.mem_map.mp member
  have known : key ∈ data := AList.mem_keys.mpr ((List.mem_insertionSort _).mp listed)
  obtain ⟨value, found⟩ := GoMap.mem_iff.mp known
  rw [found]
  exact free key value found

/-- Maps of the same content are hashed in the same order. -/
theorem sortedKeys_congr (same : ∀ key, data.lookup key = other.lookup key) :
    data.keys.insertionSort (· ≤ ·) = other.keys.insertionSort (· ≤ ·) := by
  have keys : data.keys.Perm other.keys := by
    refine (List.perm_ext_iff_of_nodup data.keys_nodup other.keys_nodup).mpr fun key => ?_
    rw [← AList.mem_keys, ← AList.mem_keys, ← AList.lookup_isSome, ← AList.lookup_isSome, same]
  refine List.Perm.eq_of_pairwise (fun a b _ _ => String.le_antisymm) (List.pairwise_insertionSort _ _)
    (List.pairwise_insertionSort _ _) ?_
  exact (List.perm_insertionSort _ _).trans (keys.trans (List.perm_insertionSort _ _).symm)

theorem secretDocument_congr (same : ∀ key, data.lookup key = other.lookup key) :
    secretDocument data = secretDocument other := by
  unfold secretDocument
  rw [sortedKeys_congr same]
  exact List.flatMap_congr fun key _ => by rw [same]

/-- An entry that is hashed is one of the map, under its own key. -/
theorem mem_sortedEntries {key : String} {value : List UInt8} (texts : KeyTexts data)
    (text : onlyFrom keyAlphabet key = true) :
    (keyBytes key, value) ∈ sortedEntries data ↔ data.lookup key = some value := by
  have sorted {key : String} : key ∈ data.keys.insertionSort (· ≤ ·) ↔ key ∈ data :=
    (List.mem_insertionSort _).trans AList.mem_keys.symm
  constructor
  · intro member
    obtain ⟨name, listed, same⟩ := List.mem_map.mp member
    have known := sorted.mp listed
    obtain ⟨bytes, rfl⟩ := Prod.mk.inj same
    obtain rfl := keyBytes_inj (texts name known) text bytes
    obtain ⟨value, found⟩ := GoMap.mem_iff.mp known
    rw [found]
    rfl
  · intro found
    have known : key ∈ data := GoMap.mem_iff.mpr ⟨value, found⟩
    exact List.mem_map.mpr ⟨key, sorted.mpr known, by rw [found]; rfl⟩

/-- Without zero bytes in the values, the hash tells the contents apart. -/
theorem secretDocument_inj (texts : KeyTexts data) (texts' : KeyTexts other) (free : ZeroFree data)
    (free' : ZeroFree other) :
    secretDocument data = secretDocument other ↔ ∀ key, data.lookup key = other.lookup key := by
  constructor
  · intro same
    rw [secretDocument_eq, secretDocument_eq] at same
    have entries := pairsDocument_inj (sortedEntries_zeroFree texts free) (sortedEntries_zeroFree texts' free') same
    have keeps {data other : GoMap String (List UInt8)} (texts : KeyTexts data) (texts' : KeyTexts other)
        (entries : sortedEntries data = sortedEntries other) {key : String} {value : List UInt8}
        (found : data.lookup key = some value) : other.lookup key = some value := by
      have text := texts key (GoMap.mem_iff.mpr ⟨value, found⟩)
      rwa [← mem_sortedEntries texts' text, ← entries, mem_sortedEntries texts text]
    intro key
    cases found : data.lookup key with
    | some value => rw [keeps texts texts' entries found]
    | none =>
      cases there : other.lookup key with
      | none => rfl
      | some value =>
        rw [keeps texts' texts entries.symm there] at found
        cases found
  · exact secretDocument_congr

/-- Contents whose entries, in the order they are hashed, become the same by writing
    entries into the values before them. -/
def Regrouped (data other : GoMap String (List UInt8)) : Prop :=
  Relation.EqvGen Absorbs (sortedEntries data) (sortedEntries other)

theorem secretDocument_regrouped (regrouped : Regrouped data other) : secretDocument data = secretDocument other := by
  rw [secretDocument_eq, secretDocument_eq, pairsDocument_absorbs regrouped]

theorem secretDocument_eq_iff (texts : KeyTexts data) (texts' : KeyTexts other) :
    secretDocument data = secretDocument other ↔ Regrouped data other := by
  rw [secretDocument_eq, secretDocument_eq]
  exact pairsDocument_eq_iff (sortedEntries_keys texts) (sortedEntries_keys texts')

end Data

end RunnerScout.Configapi
