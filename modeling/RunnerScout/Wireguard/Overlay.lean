import Mathlib.Tactic.IntervalCases
import RunnerScout.Netip

/-! # Overlay addresses

`NextOverlayAddress` scans the host range of each prefix in turn.  The end of a range is
computed over the bytes of its first address and compared with the addresses of the
scan; for an IPv4-mapped IPv6 prefix the two are of different families, and the
comparison never holds.
-/

namespace RunnerScout.Wireguard

def errOverlayAddressesExhausted : GoError := .new "wireguard: overlay address pool exhausted"

/-- The loop of `lastAddr`, from the last byte on. -/
def fillHost : Nat → List UInt8 → List UInt8
  | _, [] => []
  | hostBits, byte :: rest =>
    if hostBits = 0 then byte :: rest
    else if hostBits ≥ 8 then 0xff :: fillHost (hostBits - 8) rest
    else (byte ||| (0xff >>> UInt8.ofNat (8 - hostBits))) :: rest

def lastAddr (p : Prefix) : Addr :=
  match Addr.fromSlice (fillHost p.hostBits p.addr.asSlice.reverse).reverse with
  | none => p.addr
  | some addr => if p.addr.is4In6 then addr.unmap else addr

/-- The loop over the addresses of one prefix, which takes at most one turn for each
    address of its family. -/
def scanHosts (taken : Addr → Bool) (p : Prefix) (last : Addr) : Nat → Option Addr → Option Addr
  | 0, _ | _, none => none
  | turns + 1, some addr =>
    if addr ≠ last ∧ p.contains addr then
      if taken addr then scanHosts taken p last turns addr.next else some addr
    else none

section Netip

variable (netip : Netip)

def nextOverlayAddress : List String → List String → Except GoError String
  | [], _ => .error errOverlayAddressesExhausted
  | cidr :: rest, taken =>
    match netip.parsePrefix cidr with
    | .error e => .error ⟨e.wraps, "wireguard: invalid overlay CIDR " ++ cidr.quote ++ ": " ++ e.text⟩
    | .ok parsed =>
      let p := parsed.masked
      match scanHosts (fun addr => taken.contains (netip.string addr)) p (lastAddr p)
          (2 ^ p.addr.family.bitLen) p.addr.next with
      | some addr => .ok (netip.string addr)
      | none => nextOverlayAddress rest taken

/-- The check `Config.Validate` makes of an overlay range. -/
def validCIDR (cidr : String) : Bool :=
  match netip.parsePrefix cidr with
  | .error _ => false
  | .ok p => p = p.masked

end Netip

/-! ## The last address -/

section Last

/-- Filling sets the lowest bits and leaves the others. -/
theorem testBit_fillHost (bytes : List UInt8) : ∀ (hostBits : Nat), hostBits ≤ 8 * bytes.length → ∀ i,
    (Bytes.ofDigits (fillHost hostBits bytes)).testBit i = ((Bytes.ofDigits bytes).testBit i || decide (i < hostBits)) := by
  induction bytes with
  | nil =>
    intro hostBits bound i
    have none : hostBits = 0 := by simpa using bound
    simp [fillHost, none]
  | cons byte rest ih =>
    intro hostBits bound i
    rw [List.length_cons] at bound
    unfold fillHost
    split
    · rename_i none
      simp [none]
    split
    · rename_i full
      rw [Bytes.testBit_ofDigits, Bytes.testBit_ofDigits, ih (hostBits - 8) (by omega)]
      have ones : (0xff : UInt8).toNat = 2 ^ 8 - 1 := rfl
      rw [ones, Nat.testBit_two_pow_sub_one]
      by_cases low : i < 8
      · simp [low, show i < hostBits by omega]
      · simp [low, show i - 8 < hostBits - 8 ↔ i < hostBits by omega]
    · rename_i some part
      have shift : ((0xff : UInt8) >>> UInt8.ofNat (8 - hostBits)).toNat = 2 ^ hostBits - 1 := by
        have small : hostBits < 8 := by omega
        have positive : 0 < hostBits := by omega
        clear bound ih
        interval_cases hostBits <;> rfl
      rw [Bytes.testBit_ofDigits, Bytes.testBit_ofDigits, UInt8.toNat_or, Nat.testBit_or, shift,
        Nat.testBit_two_pow_sub_one]
      by_cases low : i < 8
      · simp [low]
      · simp [low, show ¬ i < hostBits by omega]

theorem length_fillHost (bytes : List UInt8) : ∀ hostBits, (fillHost hostBits bytes).length = bytes.length := by
  induction bytes with
  | nil => exact fun _ => rfl
  | cons byte rest ih =>
    intro hostBits
    unfold fillHost
    split
    · rfl
    split
    · rw [List.length_cons, List.length_cons, ih]
    · rfl

variable {p : Prefix}

/-- The highest address of a canonical prefix. -/
def highest (p : Prefix) (canonical : p.masked = p) : Addr where
  family := p.addr.family
  value := p.addr.value + (p.size - 1)
  bound := by
    have inside := p.end_le canonical
    have positive := p.size_pos
    omega

theorem filled_value (canonical : p.masked = p) :
    Bytes.ofDigits (fillHost p.hostBits (Bytes.digits (p.addr.family.bitLen / 8) p.addr.value)) =
      p.addr.value + (p.size - 1) := by
  have bytes : 256 ^ (p.addr.family.bitLen / 8) = 2 ^ p.addr.family.bitLen := by
    cases p.addr.family <;> rfl
  have width : 8 * (p.addr.family.bitLen / 8) = p.addr.family.bitLen := by
    cases p.addr.family <;> rfl
  have whole : Bytes.ofDigits (Bytes.digits (p.addr.family.bitLen / 8) p.addr.value) = p.addr.value :=
    Bytes.ofDigits_digits (bytes ▸ p.addr.bound)
  obtain ⟨k, base⟩ := p.dvd_of_masked canonical
  have sum : p.addr.value + (p.size - 1) = p.addr.value ||| (p.size - 1) := by
    rw [base]
    exact Nat.two_pow_add_eq_or_of_lt (Nat.sub_lt p.size_pos Nat.one_pos) k
  rw [sum]
  refine Nat.eq_of_testBit_eq fun i => ?_
  rw [testBit_fillHost _ _ (by rw [Bytes.length_digits, width]; exact Nat.sub_le _ _), whole, Nat.testBit_or,
    Prefix.size, Nat.testBit_two_pow_sub_one]

theorem lastAddr_eq (canonical : p.masked = p) :
    lastAddr p = if p.addr.is4In6 then (highest p canonical).unmap else highest p canonical := by
  have length : (fillHost p.hostBits p.addr.asSlice.reverse).reverse.length = p.addr.family.bitLen / 8 := by
    rw [List.length_reverse, length_fillHost, Addr.asSlice, List.reverse_reverse, Bytes.length_digits]
  have filled : Addr.fromSlice (fillHost p.hostBits p.addr.asSlice.reverse).reverse = some (highest p canonical) := by
    rw [Addr.fromSlice_of_length length]
    refine congrArg some (Addr.ext_value rfl ?_)
    show Bytes.ofDigits (fillHost p.hostBits p.addr.asSlice.reverse).reverse.reverse = _
    rw [List.reverse_reverse, Addr.asSlice, List.reverse_reverse]
    exact filled_value canonical
  unfold lastAddr
  rw [filled]

end Last

/-! ## One prefix -/

/-- The result of a search through the addresses of a family from `lower` up to `upper`. -/
def FirstFree (family : Family) (lower upper : Nat) (taken : Addr → Prop) : Option Addr → Prop
  | none => ∀ a : Addr, a.family = family → lower ≤ a.value → a.value < upper → taken a
  | some found => found.family = family ∧ lower ≤ found.value ∧ found.value < upper ∧ ¬ taken found ∧
    ∀ a : Addr, a.family = family → lower ≤ a.value → a.value < found.value → taken a

theorem FirstFree.unique {family : Family} {lower upper : Nat} {taken : Addr → Prop} {one other : Option Addr}
    (first : FirstFree family lower upper taken one) (second : FirstFree family lower upper taken other) :
    one = other := by
  cases one with
  | none =>
    cases other with
    | none => rfl
    | some b => exact absurd (first b second.1 second.2.1 second.2.2.1) second.2.2.2.1
  | some a =>
    cases other with
    | none => exact absurd (second a first.1 first.2.1 first.2.2.1) first.2.2.2.1
    | some b =>
      obtain ⟨familyA, lowerA, _, freeA, leastA⟩ := first
      obtain ⟨familyB, lowerB, _, freeB, leastB⟩ := second
      have notLower : ¬ b.value < a.value := fun lower => freeB (leastA b familyB lowerB lower)
      have notHigher : ¬ a.value < b.value := fun lower => freeA (leastB a familyA lowerA lower)
      exact congrArg some (Addr.ext_value (familyA.trans familyB.symm) (by omega))

section Scan

variable {taken : Addr → Bool} {p : Prefix} {last : Addr} {family : Family} {start upper : Nat}

@[simp] theorem scanHosts_none (turns : Nat) : scanHosts taken p last turns none = none := by
  cases turns <;> rfl

/-- The scan is such a search, up to where its condition fails. -/
theorem scanHosts_firstFree
    (goesOn : ∀ a : Addr, a.family = family → start ≤ a.value → ((a ≠ last ∧ p.contains a = true) ↔ a.value < upper))
    (turns : Nat) : ∀ addr : Addr, addr.family = family → start ≤ addr.value → upper ≤ addr.value + turns →
    FirstFree family addr.value upper (fun a => taken a = true) (scanHosts taken p last turns (some addr)) := by
  induction turns with
  | zero =>
    intro addr _ _ enough a _ lower above
    omega
  | succ turns ih =>
    intro addr member started enough
    rw [scanHosts]
    split
    · rename_i inside
      have below := (goesOn addr member started).mp inside
      split
      · rename_i busy
        -- the rest of the range starts at the next address
        have resume : FirstFree family (addr.value + 1) upper (fun a => taken a = true)
            (scanHosts taken p last turns addr.next) := by
          unfold Addr.next
          split
          · rename_i fits
            exact ih ⟨addr.family, addr.value + 1, fits⟩ member (by dsimp only; omega) (by dsimp only; omega)
          · rename_i overflows
            rw [scanHosts_none]
            intro a sameFamily lower _
            have bound := a.bound
            rw [sameFamily, ← member] at bound
            omega
        have first (a : Addr) (sameFamily : a.family = family) (lower : addr.value ≤ a.value) :
            a = addr ∨ addr.value + 1 ≤ a.value := by
          by_cases same : a.value = addr.value
          · exact .inl (Addr.ext_value (sameFamily.trans member.symm) same)
          · exact .inr (by omega)
        cases result : scanHosts taken p last turns addr.next with
        | none =>
          rw [result] at resume
          intro a sameFamily lower above
          obtain rfl | later := first a sameFamily lower
          · exact busy
          · exact resume a sameFamily later above
        | some found =>
          rw [result] at resume
          obtain ⟨foundFamily, lower, above, free, least⟩ := resume
          refine ⟨foundFamily, by omega, above, free, fun a sameFamily lower' earlier => ?_⟩
          obtain rfl | later := first a sameFamily lower'
          · exact busy
          · exact least a sameFamily later earlier
      · rename_i free
        exact ⟨member, le_refl _, below, free, fun a _ lower earlier => by omega⟩
    · rename_i outside
      intro a _ lower above
      have stopped := mt (goesOn addr member started).mpr outside
      omega

/-- Whatever the scan finds is an address of the prefix that is not taken. -/
theorem scanHosts_some {turns : Nat} : ∀ {start : Option Addr} {found : Addr},
    scanHosts taken p last turns start = some found → p.contains found = true ∧ taken found = false := by
  induction turns with
  | zero => exact fun scan => by cases scan
  | succ turns ih =>
    intro start found scan
    cases start with
    | none => cases scan
    | some addr =>
      rw [scanHosts] at scan
      split at scan
      · rename_i inside
        split at scan
        · exact ih scan
        · rename_i free
          cases scan
          exact ⟨inside.2, Bool.eq_false_iff.mpr free⟩
      · cases scan

end Scan

/-- The hosts of a prefix: strictly between its network address and its highest one. -/
def Host (p : Prefix) (a : Addr) : Prop :=
  a.family = p.addr.family ∧ p.addr.value < a.value ∧ a.value < p.addr.value + (p.size - 1)

/-- One past the last address of a prefix the scan looks at: its highest address, except
    for an IPv4-mapped prefix, where that one is looked at as well. -/
def scanEnd (p : Prefix) : Nat := if p.addr.is4In6 then p.addr.value + p.size else p.addr.value + (p.size - 1)

section Prefixes

variable {p : Prefix} {taken : Addr → Bool}

theorem scan_goesOn (canonical : p.masked = p) (a : Addr) (family : a.family = p.addr.family)
    (started : p.addr.value + 1 ≤ a.value) :
    (a ≠ lastAddr p ∧ p.contains a = true) ↔ a.value < scanEnd p := by
  have positive := p.size_pos
  rw [p.contains_iff canonical, lastAddr_eq canonical, scanEnd]
  split
  · rename_i mapped
    -- an unmapped address is of the other family, or no IPv4-mapped one
    have six : p.addr.family = .v6 := by
      simp only [Addr.is4In6, Bool.and_eq_true, decide_eq_true_eq] at mapped
      exact mapped.1
    constructor
    · rintro ⟨_, _, _, above⟩
      exact above
    · intro above
      refine ⟨fun same => ?_, family, by omega, above⟩
      have high : (highest p canonical).is4In6 = true := by
        simp only [Addr.is4In6, Bool.and_eq_true, decide_eq_true_eq] at mapped ⊢
        refine ⟨six, ?_⟩
        have narrow : p.hostBits ≤ 32 := by
          by_contra wide
          obtain ⟨k, base⟩ := p.dvd_of_masked canonical
          rw [Nat.shiftRight_eq_div_pow] at mapped
          have split : p.size = 2 ^ 33 * 2 ^ (p.hostBits - 33) := by
            rw [Prefix.size, ← pow_add]
            congr 1
            omega
          rw [split, Nat.mul_assoc] at base
          rw [base] at mapped
          omega
        have small : p.size ∣ 2 ^ 32 := Nat.pow_dvd_pow 2 narrow
        obtain ⟨m, whole⟩ := small
        obtain ⟨k, base⟩ := p.dvd_of_masked canonical
        have same : (highest p canonical).value / 2 ^ 32 = p.addr.value / 2 ^ 32 := by
          show (p.addr.value + (p.size - 1)) / 2 ^ 32 = _
          rw [whole, base, ← Nat.div_div_eq_div_mul, ← Nat.div_div_eq_div_mul, Nat.mul_add_div positive,
            Nat.mul_div_cancel_left k positive, Nat.div_eq_of_lt (Nat.sub_lt positive Nat.one_pos), Nat.add_zero]
        rw [Nat.shiftRight_eq_div_pow, same, ← Nat.shiftRight_eq_div_pow]
        exact mapped.2
      rw [Addr.unmap, if_pos high] at same
      have four : a.family = .v4 := by rw [same]
      rw [family, six] at four
      cases four
  · constructor
    · rintro ⟨other, _, _, above⟩
      have different : a.value ≠ p.addr.value + (p.size - 1) := fun same =>
        other (Addr.ext_value (by rw [family]; rfl) same)
      omega
    · intro above
      refine ⟨fun same => ?_, family, by omega, by omega⟩
      rw [same] at above
      exact absurd above (lt_irrefl _)

/-- The scan of one prefix. -/
theorem scanPrefix_firstFree (taken : Addr → Bool) (canonical : p.masked = p) {turns : Nat}
    (enough : 2 ^ p.addr.family.bitLen ≤ turns) :
    FirstFree p.addr.family (p.addr.value + 1) (scanEnd p) (fun a => taken a = true)
      (scanHosts taken p (lastAddr p) turns p.addr.next) := by
  have positive := p.size_pos
  have whole := p.end_le canonical
  have ends : scanEnd p ≤ p.addr.value + p.size := by
    unfold scanEnd
    split
    · exact le_refl _
    · omega
  cases next : p.addr.next with
  | none =>
    rw [scanHosts_none]
    intro a family lower _
    have bound := a.bound
    unfold Addr.next at next
    split at next
    · cases next
    · rename_i overflows
      rw [family] at bound
      omega
  | some addr =>
    have values : addr.family = p.addr.family ∧ addr.value = p.addr.value + 1 := by
      unfold Addr.next at next
      split at next
      · cases next
        exact ⟨rfl, rfl⟩
      · cases next
    rw [← values.2]
    exact scanHosts_firstFree (scan_goesOn canonical) turns addr values.1 (le_of_eq values.2.symm) (by omega)

/-- The loop comes to its end by itself: more turns change nothing. -/
theorem scanPrefix_settled (canonical : p.masked = p) {turns : Nat} (enough : 2 ^ p.addr.family.bitLen ≤ turns) :
    scanHosts taken p (lastAddr p) turns p.addr.next =
      scanHosts taken p (lastAddr p) (2 ^ p.addr.family.bitLen) p.addr.next :=
  (scanPrefix_firstFree taken canonical enough).unique (scanPrefix_firstFree taken canonical (le_refl _))

end Prefixes

/-! ## Any free address -/

/-- An address of one of the ranges. -/
def InRanges (netip : Netip) (cidrs : List String) (address : String) : Prop :=
  ∃ cidr ∈ cidrs, ∃ p a, netip.parsePrefix cidr = .ok p ∧ p.contains a = true ∧ address = netip.string a

theorem nextOverlayAddress_free {netip : Netip} {taken : List String} {address : String} : ∀ {cidrs : List String},
    nextOverlayAddress netip cidrs taken = .ok address → InRanges netip cidrs address ∧ address ∉ taken
  | [], found => by cases found
  | cidr :: rest, found => by
    unfold nextOverlayAddress at found
    split at found
    · cases found
    rename_i p parsed
    dsimp only at found
    split at found
    · rename_i addr scan
      cases found
      obtain ⟨inside, free⟩ := scanHosts_some scan
      rw [p.contains_masked] at inside
      refine ⟨⟨cidr, List.mem_cons_self, p, addr, parsed, inside, rfl⟩, fun member => ?_⟩
      rw [List.contains_iff_mem.mpr member] at free
      cases free
    · obtain ⟨⟨other, member, inside⟩, free⟩ := nextOverlayAddress_free found
      exact ⟨⟨other, List.mem_cons_of_mem _ member, inside⟩, free⟩

/-! ## The first free host -/

section FirstHost

variable (netip : Netip)

/-- Every host of a range is taken. -/
def Full (taken : List String) (cidr : String) : Prop :=
  ∀ p, netip.parsePrefix cidr = .ok p → ∀ a, Host p a → netip.string a ∈ taken

/-- The first host that is not taken, in list order and then in address order. -/
def FirstHost (cidrs taken : List String) (address : String) : Prop :=
  ∃ earlier cidr later p a, cidrs = earlier ++ cidr :: later ∧ (∀ other ∈ earlier, Full netip taken other) ∧
    netip.parsePrefix cidr = .ok p ∧ Host p a ∧ address = netip.string a ∧ netip.string a ∉ taken ∧
    ∀ b, Host p b → b.value < a.value → netip.string b ∈ taken

/-- Every address of a range that the scan looks at is taken. -/
def Used (taken : List String) (cidr : String) : Prop :=
  ∀ p, netip.parsePrefix cidr = .ok p → ∀ a : Addr, a.family = p.addr.family → p.addr.value < a.value →
    a.value < scanEnd p → netip.string a ∈ taken

/-- The scan comes to an IPv4-mapped range of which the highest address is left, and no
    host. -/
def HighestLeft (cidrs taken : List String) (address : String) : Prop :=
  ∃ earlier cidr later p a, cidrs = earlier ++ cidr :: later ∧ (∀ other ∈ earlier, Used netip taken other) ∧
    netip.parsePrefix cidr = .ok p ∧ p.addr.is4In6 = true ∧ Full netip taken cidr ∧ a.family = p.addr.family ∧
    p.addr.value < a.value ∧ a.value = p.addr.value + (p.size - 1) ∧ address = netip.string a ∧ netip.string a ∉ taken

/-- The result is the first free host, and exhaustion is reported exactly when every host
    is taken. -/
structure PicksFirst (cidrs taken : List String) : Prop where
  first : ∀ address, nextOverlayAddress netip cidrs taken = .ok address → FirstHost netip cidrs taken address
  exhausted : nextOverlayAddress netip cidrs taken = .error errOverlayAddressesExhausted ↔
    ∀ cidr ∈ cidrs, Full netip taken cidr
  only : ∀ e, nextOverlayAddress netip cidrs taken = .error e → e = errOverlayAddressesExhausted

variable {netip}

theorem canonical_of_valid {cidr : String} (valid : validCIDR netip cidr = true) :
    ∃ p, netip.parsePrefix cidr = .ok p ∧ p.masked = p := by
  unfold validCIDR at valid
  split at valid
  · cases valid
  · rename_i p parsed
    exact ⟨p, parsed, (of_decide_eq_true valid).symm⟩

theorem FirstHost.cons {cidr address : String} {cidrs taken : List String} (full : Full netip taken cidr)
    (first : FirstHost netip cidrs taken address) : FirstHost netip (cidr :: cidrs) taken address := by
  obtain ⟨earlier, found, later, p, a, rfl, fulls, rest⟩ := first
  refine ⟨cidr :: earlier, found, later, p, a, rfl, ?_, rest⟩
  exact List.forall_mem_cons.mpr ⟨full, fulls⟩

/-- The first host is free, so the ranges are not all full. -/
theorem FirstHost.not_full {address : String} {cidrs taken : List String}
    (first : FirstHost netip cidrs taken address) : ¬ ∀ cidr ∈ cidrs, Full netip taken cidr := by
  obtain ⟨earlier, cidr, later, p, a, rfl, _, parsed, host, _, free, _⟩ := first
  intro full
  exact free (full cidr (by simp) p parsed a host)

theorem Used.full {cidr : String} {taken : List String} (used : Used netip taken cidr) : Full netip taken cidr := by
  intro p parsed a host
  refine used p parsed a host.1 host.2.1 (lt_of_lt_of_le host.2.2 ?_)
  unfold scanEnd
  split <;> omega

theorem HighestLeft.cons {cidr address : String} {cidrs taken : List String} (used : Used netip taken cidr)
    (left : HighestLeft netip cidrs taken address) : HighestLeft netip (cidr :: cidrs) taken address := by
  obtain ⟨earlier, found, later, p, a, rfl, useds, rest⟩ := left
  exact ⟨cidr :: earlier, found, later, p, a, rfl, List.forall_mem_cons.mpr ⟨used, useds⟩, rest⟩

theorem nextOverlayAddress_spec (taken : List String) : ∀ {cidrs : List String},
    (∀ cidr ∈ cidrs, validCIDR netip cidr = true) →
    (∃ address, nextOverlayAddress netip cidrs taken = .ok address ∧
      (FirstHost netip cidrs taken address ∨ HighestLeft netip cidrs taken address)) ∨
      nextOverlayAddress netip cidrs taken = .error errOverlayAddressesExhausted ∧
        ∀ cidr ∈ cidrs, Full netip taken cidr := by
  intro cidrs
  induction cidrs with
  | nil => exact fun _ => .inr ⟨rfl, fun cidr member => absurd member List.not_mem_nil⟩
  | cons cidr rest ih =>
    intro valid
    rw [List.forall_mem_cons] at valid
    obtain ⟨p, parsed, canonical⟩ := canonical_of_valid valid.1
    have scan := scanPrefix_firstFree (fun addr => taken.contains (netip.string addr)) canonical (le_refl _)
    simp only [nextOverlayAddress, parsed, canonical]
    split
    · rename_i found result
      rw [result] at scan
      obtain ⟨family, lower, upper, free, least⟩ := scan
      have free : netip.string found ∉ taken := fun member => free (List.contains_iff_mem.mpr member)
      have least (b : Addr) (host : Host p b) (earlier : b.value < found.value) : netip.string b ∈ taken :=
        List.contains_iff_mem.mp (least b host.1 host.2.1 earlier)
      have nothing : ∀ other ∈ ([] : List String), False := fun other member => absurd member List.not_mem_nil
      refine .inl ⟨netip.string found, rfl, ?_⟩
      by_cases host : found.value < p.addr.value + (p.size - 1)
      · exact .inl ⟨[], cidr, rest, p, found, rfl, fun other member => (nothing other member).elim, parsed,
          ⟨family, lower, host⟩, rfl, free, least⟩
      · unfold scanEnd at upper
        split at upper
        · rename_i mapped
          have highest : found.value = p.addr.value + (p.size - 1) := by omega
          refine .inr ⟨[], cidr, rest, p, found, rfl, fun other member => (nothing other member).elim, parsed, mapped,
            fun q parsedAs b inside => ?_, family, lower, highest, rfl, free⟩
          obtain rfl : p = q := Except.ok.inj (parsed.symm.trans parsedAs)
          exact least b inside (highest ▸ inside.2.2)
        · exact absurd upper host
    · rename_i result
      rw [result] at scan
      have used : Used netip taken cidr := by
        intro q parsedAs a family lower upper
        obtain rfl : p = q := Except.ok.inj (parsed.symm.trans parsedAs)
        exact List.contains_iff_mem.mp (scan a family lower upper)
      obtain ⟨address, found, first | left⟩ | ⟨exhausted, fulls⟩ := ih valid.2
      · exact .inl ⟨address, found, .inl (first.cons used.full)⟩
      · exact .inl ⟨address, found, .inr (left.cons used)⟩
      · exact .inr ⟨exhausted, List.forall_mem_cons.mpr ⟨used.full, fulls⟩⟩

/-- An address that is left in that way is what is returned. -/
theorem HighestLeft.returned {address : String} {taken : List String} : ∀ {cidrs : List String},
    (∀ cidr ∈ cidrs, validCIDR netip cidr = true) → HighestLeft netip cidrs taken address →
      nextOverlayAddress netip cidrs taken = .ok address := by
  rintro _ valid ⟨earlier, cidr, later, p, a, rfl, useds, parsed, mapped, full, family, lower, highest, rfl, free⟩
  induction earlier with
  | nil =>
    obtain ⟨q, parsedAs, canonical⟩ := canonical_of_valid (valid cidr List.mem_cons_self)
    obtain rfl : p = q := Except.ok.inj (parsed.symm.trans parsedAs)
    have scan := scanPrefix_firstFree (fun addr => taken.contains (netip.string addr)) canonical (le_refl _)
    have found := @FirstFree.unique _ _ _ _ _ (some a) scan ⟨family, lower, by rw [scanEnd, if_pos mapped]; omega,
      fun busy => free (List.contains_iff_mem.mp busy), fun b same above earlier =>
        List.contains_iff_mem.mpr (full p parsed b ⟨same, above, highest ▸ earlier⟩)⟩
    simp only [List.nil_append, nextOverlayAddress, parsed, canonical, found]
  | cons other earlier ih =>
    obtain ⟨used, useds⟩ := List.forall_mem_cons.mp useds
    obtain ⟨here, valid⟩ := List.forall_mem_cons.mp valid
    obtain ⟨q, parsedAs, canonical⟩ := canonical_of_valid here
    have scan := scanPrefix_firstFree (fun addr => taken.contains (netip.string addr)) canonical (le_refl _)
    have skipped := @FirstFree.unique _ _ _ _ _ none scan fun b same above below =>
      List.contains_iff_mem.mpr (used q parsedAs b same above below)
    simp only [List.cons_append, nextOverlayAddress, parsedAs, canonical, skipped]
    exact ih valid useds

/-- Over canonical ranges the scan of every range comes to its end.  The result is the first
    free host, and the pool is reported as exhausted exactly when every host is taken, if
    and only if no scan comes to an IPv4-mapped range with only its highest address left,
    unless a later range has that as its first free host. -/
theorem nextOverlayAddress_first_free (netip : Netip) (cidrs taken : List String)
    (valid : ∀ cidr ∈ cidrs, validCIDR netip cidr = true) :
    (∀ cidr ∈ cidrs, ∀ p, netip.parsePrefix cidr = .ok p → ∀ busy turns, 2 ^ p.addr.family.bitLen ≤ turns →
      scanHosts busy p.masked (lastAddr p.masked) turns p.masked.addr.next =
        scanHosts busy p.masked (lastAddr p.masked) (2 ^ p.masked.addr.family.bitLen) p.masked.addr.next) ∧
    (PicksFirst netip cidrs taken ↔
      ∀ address, HighestLeft netip cidrs taken address → FirstHost netip cidrs taken address) := by
  refine ⟨fun cidr _ p _ busy turns enough => scanPrefix_settled p.masked_masked enough, ?_, fun harmless => ?_⟩
  · exact fun picks address left => picks.first address (left.returned valid)
  -- an address that is returned is the first host, or the highest one of a mapped range
  obtain ⟨address, found, first⟩ | ⟨exhausted, full⟩ := nextOverlayAddress_spec taken valid
  · have first : FirstHost netip cidrs taken address := first.elim id (harmless address)
    constructor
    · intro other same
      cases found.symm.trans same
      exact first
    · rw [found]
      exact ⟨(fun failed => by cases failed), fun full => absurd full first.not_full⟩
    · intro e failed
      cases found.symm.trans failed
  · constructor
    · intro address found
      cases exhausted.symm.trans found
    · exact ⟨fun _ => full, fun _ => exhausted⟩
    · intro e failed
      cases exhausted.symm.trans failed
      rfl

end FirstHost

/-- Addresses written as their family and their bits, and a table of prefixes. -/
def bitNetip (table : List (String × Prefix)) : Netip where
  parsePrefix cidr :=
    match table.lookup cidr with
    | some p => .ok p
    | none => .error (.new "netip.ParsePrefix: unable to parse IP")
  string a := String.ofList ((if a.family = .v4 then '4' else '6') ::
    (List.range 128).map fun i => if a.value.testBit i then '1' else '0')
  string_injective := by
    intro a b same
    have chars := String.ofList_injective same
    rw [List.cons.injEq] at chars
    have family : a.family = b.family := by
      revert chars
      cases a.family <;> cases b.family <;> simp
    refine Addr.ext_value family (Nat.eq_of_testBit_eq fun i => ?_)
    by_cases low : i < 128
    · have bit := List.map_inj_left.mp chars.2 i (List.mem_range.mpr low)
      revert bit
      cases a.value.testBit i <;> cases b.value.testBit i <;> simp
    · have high (c : Addr) : c.value.testBit i = false := by
        refine Nat.testBit_lt_two_pow (lt_of_lt_of_le c.bound (Nat.pow_le_pow_right Nat.two_pos ?_))
        cases c.family with
        | v4 => exact le_trans (by decide) (not_lt.mp low)
        | v6 => exact not_lt.mp low
      rw [high, high]
  string_ne_empty := by
    intro a same
    have none := congrArg String.length same
    simp at none

/-- `10.42.0.0/30` and `::ffff:10.42.0.0/126`. -/
def smallNetip : Netip := bitNetip
  [("10.42.0.0/30", ⟨⟨.v4, 0x0a2a0000, by decide⟩, 30, by decide⟩),
    ("::ffff:10.42.0.0/126", ⟨⟨.v6, 0xffff0a2a0000, by decide⟩, 126, by decide⟩)]

/-- `10.42.0.host`. -/
def smallHost (host : Fin 4) : Addr := ⟨.v4, 0x0a2a0000 + host, by simp only [Family.bitLen]; omega⟩

/-- `::ffff:10.42.0.host`. -/
def mappedHost (host : Fin 4) : Addr := ⟨.v6, 0xffff0a2a0000 + host, by simp only [Family.bitLen]; omega⟩

theorem nextOverlayAddress_first_free_small :
    nextOverlayAddress smallNetip ["10.42.0.0/30"] [smallNetip.string (smallHost 1)] =
      .ok (smallNetip.string (smallHost 2)) ∧
    FirstHost smallNetip ["10.42.0.0/30"] [smallNetip.string (smallHost 1)] (smallNetip.string (smallHost 2)) := by
  have result : nextOverlayAddress smallNetip ["10.42.0.0/30"] [smallNetip.string (smallHost 1)] =
      .ok (smallNetip.string (smallHost 2)) := by
    decide +kernel
  refine ⟨result, ?_⟩
  have picks := (nextOverlayAddress_first_free smallNetip ["10.42.0.0/30"] [smallNetip.string (smallHost 1)]
    (by decide +kernel)).2
  refine (picks.mpr fun address left => ?_).first _ result
  obtain ⟨earlier, cidr, later, p, a, split, _, parsed, mapped, _⟩ := left
  have member : cidr ∈ ["10.42.0.0/30"] := split ▸ List.mem_append_right _ List.mem_cons_self
  obtain rfl := List.mem_singleton.mp member
  cases parsed
  cases mapped

/-- In an IPv4-mapped prefix with both of its hosts taken the highest address is handed out
    instead of an error. -/
theorem nextOverlayAddress_highest :
    validCIDR smallNetip "::ffff:10.42.0.0/126" = true ∧
    (∀ p, smallNetip.parsePrefix "::ffff:10.42.0.0/126" = .ok p → ¬ Host p (mappedHost 3)) ∧
    Full smallNetip [smallNetip.string (mappedHost 1), smallNetip.string (mappedHost 2)] "::ffff:10.42.0.0/126" ∧
    nextOverlayAddress smallNetip ["::ffff:10.42.0.0/126"]
      [smallNetip.string (mappedHost 1), smallNetip.string (mappedHost 2)] =
      .ok (smallNetip.string (mappedHost 3)) := by
  refine ⟨by decide +kernel, ?_, ?_, by decide +kernel⟩
  · intro p parsed host
    cases parsed
    exact absurd host.2.2 (by decide)
  · intro p parsed a host
    cases parsed
    obtain ⟨family, lower, upper⟩ := host
    have either : a.value = 0xffff0a2a0000 + 1 ∨ a.value = 0xffff0a2a0000 + 2 := by
      have size : Prefix.size ⟨⟨.v6, 0xffff0a2a0000, by decide⟩, 126, by decide⟩ = 4 := rfl
      rw [size] at upper
      simp only at lower upper
      omega
    obtain one | two := either
    · rw [Addr.ext_value (b := mappedHost 1) family one]
      exact List.mem_cons_self
    · rw [Addr.ext_value (b := mappedHost 2) family two]
      exact List.mem_cons_of_mem _ List.mem_cons_self

end RunnerScout.Wireguard
