import RunnerScout.Golang
import RunnerScout.Interaction.Trace

/-! # Looking up SKUs page by page

The billing catalog has no filter, so the pages of its listing are read until every
wanted SKU was found, the listing ends, or 64 pages were read.  How the listing is cut
into pages does not show in the result.
-/

namespace RunnerScout.Prices

open Interaction Program

variable {want : GoMap String Bool} {seen : List GcpSku} {found : GoMap String GcpSku}

/-! ## The listing -/

structure GcpSkuMoney where
  currencyCode : String := ""
  units : String := ""
  nanos : Int := 0
deriving DecidableEq, Repr

structure GcpPricingExpression where
  usageUnit : String := ""
  tieredRates : List GcpSkuMoney := []
deriving DecidableEq, Repr

structure GcpSku where
  skuID : String
  resourceGroup : String := ""
  pricingInfo : List GcpPricingExpression := []
deriving DecidableEq, Repr

structure GcpSkuListResponse where
  skus : List GcpSku
  nextPageToken : String
deriving DecidableEq, Repr

/-- A response: its status, and its body, if it could be read, by its size and what it
    decodes to. -/
structure SkuResponse where
  statusCode : Nat
  body : Option (Nat × Option GcpSkuListResponse)

/-- What `httpClient.Do` comes back with. -/
inductive SkuReply where
  | canceled (cause : GoError)
  | unavailable
  | response (response : SkuResponse)

inductive SkuRequest where
  | list (pageToken : String)

abbrev SkuCalls : Signature := ⟨SkuRequest, fun _ => SkuReply⟩

/-- `GCPSkuClient`, by the error its request for a page is refused with. -/
structure GCPSkuClient where
  request : String → Option GoError

def gcpMaxSkuPages : Nat := 64

def gcpDecodeSkuPage (response : SkuResponse) : Except GoError GcpSkuListResponse :=
  if response.statusCode < 200 ∨ response.statusCode ≥ 300 then .error (.new "GCP SKU list observation unavailable")
  else
    match response.body with
    | none => .error (.new "GCP SKU list response unavailable or excessive")
    | some (size, decoded) =>
      if size > 8 <<< 20 then .error (.new "GCP SKU list response unavailable or excessive")
      else
        match decoded with
        | none => .error (.new "GCP SKU list response malformed")
        | some envelope => .ok envelope

/-- The wanted SKUs of one page, added to those found. -/
def collectSkus (want : GoMap String Bool) : List GcpSku → GoMap String GcpSku →
    Except GoError (GoMap String GcpSku)
  | [], found => .ok found
  | sku :: rest, found =>
    if !(want.lookup sku.skuID).getD false then collectSkus want rest found
    else if (found.lookup sku.skuID).isSome then
      .error (.new "GCP SKU list returned a duplicate entry for a requested SKU")
    else collectSkus want rest (found.insert sku.skuID sku)

/-- The loop of `findSkus`, with the pages it may still read. -/
def findSkusFrom (c : GCPSkuClient) (want : GoMap String Bool) :
    Nat → GoMap String GcpSku → String → Program SkuCalls (Except GoError (GoMap String GcpSku))
  | 0, _, _ => return .error (.new "GCP SKU list pagination exceeded without locating every requested SKU")
  | remaining + 1, found, pageToken => do
    match c.request pageToken with
    | some e => return .error e
    | none =>
      match ← ask (S := SkuCalls) (.list pageToken) with
      | .canceled cause => return .error cause
      | .unavailable => return .error (.new "GCP SKU list observation unavailable")
      | .response response =>
        match gcpDecodeSkuPage response with
        | .error e => return .error e
        | .ok envelope =>
          match collectSkus want envelope.skus found with
          | .error e => return .error e
          | .ok found =>
            if found.entries.length = want.entries.length then return .ok found
            else if envelope.nextPageToken = "" then return .ok found
            else findSkusFrom c want remaining found envelope.nextPageToken

def findSkus (c : GCPSkuClient) (want : GoMap String Bool) : Program SkuCalls (Except GoError (GoMap String GcpSku)) :=
  findSkusFrom c want gcpMaxSkuPages ∅ ""

/-! ## The number of requests -/

theorem findSkusFrom_reaches {c : GCPSkuClient} : ∀ {remaining : Nat}
    {found : GoMap String GcpSku} {token : String} {trace : List (Exchange SkuCalls)} {request : SkuRequest},
    (findSkusFrom c want remaining found token).Reaches trace request → trace.length < remaining
  | 0, _, _, _, _, run => absurd run not_reaches_done
  | remaining + 1, found, token, trace, request, run => by
    rw [findSkusFrom] at run
    split at run
    · exact absurd run not_reaches_done
    obtain ⟨rfl, _⟩ | ⟨reply, later, rfl, goesOn⟩ := reaches_ask run
    · exact Nat.succ_pos remaining
    rw [List.length_cons]
    apply Nat.succ_lt_succ
    cases reply with
    | canceled cause => exact absurd goesOn not_reaches_done
    | unavailable => exact absurd goesOn not_reaches_done
    | response response =>
      dsimp only at goesOn
      split at goesOn
      · exact absurd goesOn not_reaches_done
      split at goesOn
      · exact absurd goesOn not_reaches_done
      split at goesOn
      · exact absurd goesOn not_reaches_done
      split at goesOn
      · exact absurd goesOn not_reaches_done
      · exact findSkusFrom_reaches goesOn

/-! ## What is found -/

/-- The wanted entries of a list of SKUs. -/
def Wanted (want : GoMap String Bool) (skus : List GcpSku) (found : GoMap String GcpSku) : Prop :=
  ∀ id sku, found.lookup id = some sku ↔ id ∈ want ∧ sku ∈ skus ∧ sku.skuID = id

/-- A set of wanted IDs. -/
def IsSet (want : GoMap String Bool) : Prop := ∀ id ∈ want, want.lookup id = some true

theorem IsSet.lookup (set : IsSet want) (id : String) :
    (want.lookup id).getD false = true ↔ id ∈ want := by
  constructor
  · intro wanted
    by_contra absent
    rw [AList.lookup_eq_none.mpr absent] at wanted
    cases wanted
  · intro member
    rw [set id member]
    rfl

/-- One more SKU, of a new ID. -/
theorem Wanted.insert {sku : GcpSku} (wanted : Wanted want seen found) (member : sku.skuID ∈ want)
    (fresh : found.lookup sku.skuID = none) :
    Wanted want (seen ++ [sku]) (found.insert sku.skuID sku) := by
  intro id other
  rw [List.mem_append, List.mem_singleton]
  by_cases same : id = sku.skuID
  · subst same
    rw [AList.lookup_insert]
    constructor
    · rintro ⟨⟩
      exact ⟨member, .inr rfl, rfl⟩
    · rintro ⟨_, earlier | rfl, named⟩
      · rw [(wanted _ other).mpr ⟨member, earlier, named⟩] at fresh
        cases fresh
      · rfl
  · rw [AList.lookup_insert_ne same, wanted id other]
    constructor
    · rintro ⟨asked, earlier, named⟩
      exact ⟨asked, .inl earlier, named⟩
    · rintro ⟨asked, earlier | rfl, named⟩
      · exact ⟨asked, earlier, named⟩
      · exact absurd named.symm same

theorem Wanted.skip {sku : GcpSku} (wanted : Wanted want seen found) (other : sku.skuID ∉ want) :
    Wanted want (seen ++ [sku]) found := by
  intro id found
  rw [wanted id found, List.mem_append, List.mem_singleton]
  constructor
  · rintro ⟨asked, earlier, named⟩
    exact ⟨asked, .inl earlier, named⟩
  · rintro ⟨asked, earlier | rfl, named⟩
    · exact ⟨asked, earlier, named⟩
    · exact absurd (named ▸ asked) other

/-- A page that repeats no ID adds its wanted SKUs to those found before. -/
theorem collectSkus_wanted (set : IsSet want) : ∀ {page : List GcpSku} {seen : List GcpSku}
    {found : GoMap String GcpSku}, Wanted want seen found → ((seen ++ page).map GcpSku.skuID).Nodup →
      ∃ after, collectSkus want page found = .ok after ∧ Wanted want (seen ++ page) after
  | [], seen, found, wanted, _ => ⟨found, rfl, by rwa [List.append_nil]⟩
  | sku :: rest, seen, found, wanted, distinct => by
    rw [List.append_cons] at distinct ⊢
    rw [collectSkus]
    by_cases member : sku.skuID ∈ want
    · have fresh : found.lookup sku.skuID = none := by
        cases lookup : found.lookup sku.skuID with
        | none => rfl
        | some other =>
          obtain ⟨_, earlier, same⟩ := (wanted _ _).mp lookup
          rw [List.map_append, List.map_append] at distinct
          have apart := (List.nodup_append.mp (List.nodup_append.mp distinct).1).2.2
          exact absurd same (apart _ (List.mem_map_of_mem earlier) _ (List.mem_map_of_mem List.mem_cons_self))
      rw [(set.lookup _).mpr member, fresh]
      exact collectSkus_wanted set (wanted.insert member fresh) distinct
    · have unasked : (want.lookup sku.skuID).getD false = false := by
        rw [← Bool.not_eq_true, set.lookup]
        exact member
      rw [unasked]
      exact collectSkus_wanted set (wanted.skip member) distinct

/-- Once as many are found as are wanted, the rest of the listing has none of them. -/
theorem Wanted.complete {rest : List GcpSku} (wanted : Wanted want seen found)
    (distinct : ((seen ++ rest).map GcpSku.skuID).Nodup) (all : found.entries.length = want.entries.length) :
    Wanted want (seen ++ rest) found := by
  have part : found.keys ⊆ want.keys := by
    intro id member
    obtain ⟨sku, lookup⟩ := GoMap.mem_iff.mp (AList.mem_keys.mpr member)
    exact AList.mem_keys.mp ((wanted id sku).mp lookup).1
  have lengths : want.keys.length ≤ found.keys.length := by
    simp only [AList.keys, List.keys, List.length_map]
    omega
  have perm := (List.subperm_of_subset found.keys_nodup part).perm_of_length_le lengths
  intro id sku
  constructor
  · intro lookup
    obtain ⟨asked, earlier, named⟩ := (wanted id sku).mp lookup
    exact ⟨asked, List.mem_append_left _ earlier, named⟩
  · rintro ⟨asked, listed, named⟩
    obtain ⟨other, lookup⟩ := Option.isSome_iff_exists.mp
      (AList.lookup_isSome.mpr (AList.mem_keys.mpr (perm.mem_iff.mpr (AList.mem_keys.mp asked))))
    obtain ⟨_, earlier, same⟩ := (wanted id other).mp lookup
    have one := List.inj_on_of_nodup_map distinct (List.mem_append_left _ earlier) listed (same.trans named.symm)
    rw [lookup, one]

/-! ## A listing in pages -/

/-- Every page but the last names another one. -/
def Paged : List GcpSkuListResponse → Prop
  | [] => False
  | [page] => page.nextPageToken = ""
  | page :: next :: rest => page.nextPageToken ≠ "" ∧ Paged (next :: rest)

/-- A server that keeps the token of the next page, and answers with that page only to
    it, in a response of its choice. -/
def serve (respond : GcpSkuListResponse → SkuResponse) : SkuRequest → String × List GcpSkuListResponse →
    SkuReply × String × List GcpSkuListResponse
  | .list pageToken, (next, page :: rest) =>
    if pageToken = next then (.response (respond page), page.nextPageToken, rest) else (.unavailable, next, page :: rest)
  | .list _, (next, []) => (.unavailable, next, [])

/-- What `findSkus` comes back with from that server. -/
def findServed (c : GCPSkuClient) (want : GoMap String Bool) (respond : GcpSkuListResponse → SkuResponse)
    (pages : List GcpSkuListResponse) : Except GoError (GoMap String GcpSku) :=
  ((findSkus c want).converse (serve respond) ("", pages)).2.1

theorem findSkusFrom_served {c : GCPSkuClient} (builds : ∀ token, c.request token = none) (set : IsSet want)
    {respond : GcpSkuListResponse → SkuResponse} :
    ∀ {remaining : Nat} {pages : List GcpSkuListResponse} {seen : List GcpSku} {found : GoMap String GcpSku}
      {token : String}, (∀ page ∈ pages, gcpDecodeSkuPage (respond page) = .ok page) → Paged pages →
      Wanted want seen found → ((seen ++ pages.flatMap GcpSkuListResponse.skus).map GcpSku.skuID).Nodup →
      (∃ final, ((findSkusFrom c want remaining found token).converse (serve respond) (token, pages)).2.1 = .ok final ∧
        Wanted want (seen ++ pages.flatMap GcpSkuListResponse.skus) final) ∨
      (remaining < pages.length ∧
        ∃ e, ((findSkusFrom c want remaining found token).converse (serve respond) (token, pages)).2.1 = .error e)
  | 0, pages, _, _, _, _, paged, _, _ => by
    cases pages with
    | nil => cases paged
    | cons page rest => exact .inr ⟨Nat.succ_pos _, _, rfl⟩
  | remaining + 1, [], _, _, _, _, paged, _, _ => by cases paged
  | remaining + 1, page :: rest, seen, found, token, decodes, paged, wanted, distinct => by
    rw [List.flatMap_cons, ← List.append_assoc] at distinct ⊢
    have now : ((seen ++ page.skus).map GcpSku.skuID).Nodup := by
      rw [List.map_append] at distinct
      exact (List.nodup_append.mp distinct).1
    obtain ⟨after, collected, holds⟩ := collectSkus_wanted set wanted now
    simp only [findSkusFrom, builds, ask, Program.call_bind, Program.done_bind, Program.converse, serve,
      ↓reduceIte, decodes page List.mem_cons_self, collected]
    split
    · rename_i all
      exact .inl ⟨after, rfl, holds.complete distinct all⟩
    split
    · rename_i ended
      cases rest with
      | nil => exact .inl ⟨after, rfl, by simpa using holds⟩
      | cons next rest => exact absurd ended paged.1
    · rename_i more
      have later : Paged rest := by
        cases rest with
        | nil => exact absurd paged more
        | cons next rest => exact paged.2
      have others (x : GcpSkuListResponse) (member : x ∈ rest) := decodes x (List.mem_cons_of_mem _ member)
      obtain found | ⟨fewer, failed⟩ := findSkusFrom_served builds set others later holds distinct
      · exact .inl found
      · exact .inr ⟨Nat.succ_lt_succ fewer, failed⟩

theorem wanted_empty (want : GoMap String Bool) : Wanted want [] ∅ := by
  intro id sku
  simp

/-- From a listing without repeated IDs exactly the wanted SKUs are found, however it is
    cut into at most 64 pages; of a longer one the same or an error comes back; and no
    more than 64 pages are ever asked for. -/
theorem findSkus_independent_of_paging (c : GCPSkuClient) (want : GoMap String Bool) :
    (∀ respond skus pages, (∀ token, c.request token = none) → IsSet want → (skus.map GcpSku.skuID).Nodup →
      Paged pages → pages.flatMap GcpSkuListResponse.skus = skus →
      (∀ page ∈ pages, gcpDecodeSkuPage (respond page) = .ok page) →
        (∃ found, findServed c want respond pages = .ok found ∧ Wanted want skus found) ∨
          (gcpMaxSkuPages < pages.length ∧ ∃ e, findServed c want respond pages = .error e)) ∧
    ∀ trace request, (findSkus c want).Reaches trace request → trace.length < gcpMaxSkuPages := by
  refine ⟨fun respond skus pages builds set distinct paged cut decodes => ?_, fun trace request => findSkusFrom_reaches⟩
  subst cut
  exact findSkusFrom_served builds set decodes paged (wanted_empty want) distinct

/-- Two wanted SKUs on two pages. -/
def twoPages : List GcpSkuListResponse := [⟨[⟨"core", "", []⟩], "next"⟩, ⟨[⟨"other", "", []⟩, ⟨"ram", "", []⟩], ""⟩]

def coreAndRam : GoMap String Bool := ((∅ : GoMap String Bool).insert "core" true).insert "ram" true

theorem findSkus_twoPages :
    ∃ found, findServed ⟨fun _ => none⟩ coreAndRam (fun page => ⟨200, some (0, some page)⟩) twoPages = .ok found ∧
      Wanted coreAndRam [⟨"core", "", []⟩, ⟨"other", "", []⟩, ⟨"ram", "", []⟩] found := by
  obtain found | ⟨more, _⟩ := (findSkus_independent_of_paging ⟨fun _ => none⟩ coreAndRam).1
    (fun page => ⟨200, some (0, some page)⟩) _ twoPages (fun _ => rfl) (by intro id member; revert id; decide)
    (by decide) ⟨by decide, rfl⟩ rfl (fun _ _ => rfl)
  · exact found
  · exact absurd more (by decide)

end RunnerScout.Prices
