import Mathlib.Data.Fin.VecNotation
import OpenClaw.Js.Text
import OpenClaw.Lib.Leading

/-!
# IP addresses

Literals are parsed and classified by the library `ipaddr.js`, which is a parameter.
An IPv6 address may carry an IPv4 address, by one of several schemes.
-/

namespace OpenClaw.Net

open Js (Text trimChars)

-- ---
-- The library
-- ---

structure IPv4 where
  octets : Fin 4 → BitVec 8

structure IPv6 where
  parts : Fin 8 → BitVec 16
  zoneId : Option Text := none

instance neZero_eight : NeZero 8 := ⟨by decide⟩

inductive ParsedIpAddress
  | ipv4 (address : IPv4)
  | ipv6 (address : IPv6)

/-- The ranges that are told apart here; the library has more. -/
inductive Ipv4Range
  | unspecified
  | broadcast
  | multicast
  | linkLocal
  | loopback
  | carrierGradeNat
  | privateUse
  | reserved
  | other (name : String)
  deriving DecidableEq

inductive Ipv6Range
  | unspecified
  | loopback
  | linkLocal
  | uniqueLocal
  | multicast
  | reserved
  | benchmarking
  | discard
  | orchid2
  | rfc6145
  | rfc6052
  | other (name : String)
  deriving DecidableEq

structure IpLibrary where
  isValid4 : Text → Bool
  isValidFourPartDecimal : Text → Bool
  parse4 : Text → IPv4
  isValid6 : Text → Bool
  parse6 : Text → IPv6
  /-- `isValid` and `parse`, which take either kind. -/
  parse? : Text → Option ParsedIpAddress
  range4 : IPv4 → Ipv4Range
  match4 : IPv4 → IPv4 × Nat → Bool
  range6 : IPv6 → Ipv6Range
  isIPv4MappedAddress : IPv6 → Bool
  toIPv4Address : IPv6 → IPv4

variable (lib : IpLibrary)

-- ---
-- Literals
-- ---

def stripIpv6Brackets (value : Text) : Text :=
  if value.head? = some '[' && value.getLast? = some ']' then value.tail.dropLast else value

def normalizeIpParseInput (raw : Text) : Option Text :=
  if trimChars raw = [] then none else some (stripIpv6Brackets (trimChars raw))

/-- `[^:%]+(?:\.[^:%]+)` with so many repetitions: the earliest dot after a character
separates. -/
def dottedParts : Nat → Text → Bool
  | 0, text => text ≠ []
  | _ + 1, [] => false
  | n + 1, _ :: rest =>
    match rest.dropWhile (· ≠ '.') with
    | [] => false
    | _ :: rest => dottedParts n rest

def isLineTerminator (c : Char) : Bool := c = '\n' || c = '\r' || c.toNat = 0x2028 || c.toNat = 0x2029

/-- `/^(.*:)([^:%]+(?:\.[^:%]+){3})(%[0-9A-Za-z]+)?$/i.exec(raw)` -/
def splitEmbeddedIpv4 (raw : Text) : Option (Text × Text × Text) :=
  let rest := raw.rtakeWhile (· ≠ ':')
  let head := raw.rdropWhile (· ≠ ':')
  let embeddedIpv4 := rest.takeWhile (· ≠ '%')
  let zoneSuffix := rest.dropWhile (· ≠ '%')
  if head ≠ [] && !head.any isLineTerminator && dottedParts 3 embeddedIpv4 &&
      (zoneSuffix = [] || (zoneSuffix.tail ≠ [] && zoneSuffix.tail.all Char.isAlphanum)) then
    some (head, embeddedIpv4, zoneSuffix)
  else none

/-- `Number.parseInt(part, 10)`, of decimal digits. -/
def parseDecimal (part : Text) : Nat := part.foldl (fun n c => 10 * n + (c.toNat - '0'.toNat)) 0

/-- `value.toString(16)` -/
def toHex (value : Nat) : Text := Nat.toDigits 16 value

def parseIpv6WithEmbeddedIpv4 (raw : Text) : Option IPv6 :=
  if !raw.contains ':' || !raw.contains '.' then none
  else match splitEmbeddedIpv4 raw with
    | none => none
    | some (head, embeddedIpv4, zoneSuffix) =>
      if !lib.isValidFourPartDecimal embeddedIpv4 then none
      else
        let octets := (embeddedIpv4.splitOn '.').map parseDecimal
        let high := toHex ((octets.getD 0 0 <<< 8) ||| octets.getD 1 0)
        let low := toHex ((octets.getD 2 0 <<< 8) ||| octets.getD 3 0)
        let normalizedIpv6 := head ++ high ++ ':' :: low ++ zoneSuffix
        if lib.isValid6 normalizedIpv6 then some (lib.parse6 normalizedIpv6) else none

def parseCanonicalIpAddress (raw : Text) : Option ParsedIpAddress :=
  match normalizeIpParseInput raw with
  | none => none
  | some normalized =>
    if normalized = [] then none
    else if lib.isValid4 normalized then
      if lib.isValidFourPartDecimal normalized then some (.ipv4 (lib.parse4 normalized)) else none
    else if lib.isValid6 normalized then some (.ipv6 (lib.parse6 normalized))
    else (parseIpv6WithEmbeddedIpv4 lib normalized).map .ipv6

def parseLooseIpAddress (raw : Text) : Option ParsedIpAddress :=
  match normalizeIpParseInput raw with
  | none => none
  | some normalized =>
    if normalized = [] then none
    else match lib.parse? normalized with
      | some address => some address
      | none => (parseIpv6WithEmbeddedIpv4 lib normalized).map .ipv6

def isCanonicalDottedDecimalIPv4 (raw : Text) : Bool :=
  match normalizeIpParseInput raw with
  | none => false
  | some normalized => normalized ≠ [] && lib.isValidFourPartDecimal normalized

/-- `/^[0-9]+$/.test(part)` -/
def isDecimalPart (part : Text) : Bool := part ≠ [] && part.all Char.isDigit

/-- `/^0x/i.test(part)` -/
def isHexMarked (part : Text) : Bool := ['0', 'x'].isPrefixOf part || ['0', 'X'].isPrefixOf part

def isHexDigit (c : Char) : Bool := c.isDigit || ('a' ≤ c && c ≤ 'f') || ('A' ≤ c && c ≤ 'F')

def isNumericIpv4LiteralPart (value : Text) : Bool :=
  isDecimalPart value || (isHexMarked value && value.drop 2 ≠ [] && (value.drop 2).all isHexDigit)

def isLegacyIpv4Literal (raw : Text) : Bool :=
  match normalizeIpParseInput raw with
  | none => false
  | some normalized =>
    if normalized = [] || normalized.contains ':' then false
    else if isCanonicalDottedDecimalIPv4 lib normalized then false
    else
      let parts := normalized.splitOn '.'
      if parts.length = 0 || 4 < parts.length then false
      else if parts.any (· = []) then false
      else parts.all isNumericIpv4LiteralPart

-- ---
-- Special use
-- ---

def BLOCKED_IPV4_SPECIAL_USE_RANGES : List Ipv4Range :=
  [.unspecified, .broadcast, .multicast, .linkLocal, .loopback, .carrierGradeNat, .privateUse, .reserved]

def BLOCKED_IPV6_SPECIAL_USE_RANGES : List Ipv6Range :=
  [.unspecified, .loopback, .linkLocal, .uniqueLocal, .multicast, .reserved, .benchmarking, .discard, .orchid2]

def RFC2544_BENCHMARK_PREFIX : IPv4 × Nat := (⟨![198, 18, 0, 0]⟩, 15)

def isBlockedSpecialUseIpv4Address (address : IPv4) (allowRfc2544BenchmarkRange : Bool) : Bool :=
  let inRfc2544BenchmarkRange := lib.match4 address RFC2544_BENCHMARK_PREFIX
  if inRfc2544BenchmarkRange && allowRfc2544BenchmarkRange then false
  else BLOCKED_IPV4_SPECIAL_USE_RANGES.contains (lib.range4 address) || inRfc2544BenchmarkRange

def isBlockedSpecialUseIpv6Address (address : IPv6) : Bool :=
  BLOCKED_IPV6_SPECIAL_USE_RANGES.contains (lib.range6 address) || address.parts 0 &&& 0xffc0 = 0xfec0

-- ---
-- Embedded addresses
-- ---

structure EmbeddedIpv4Rule where
  applies : IPv6 → Bool
  toHextets : IPv6 → BitVec 16 × BitVec 16

/-- `::w.x.y.z` -/
def ipv4CompatibleRule : EmbeddedIpv4Rule where
  applies address := address.parts 0 = 0 && address.parts 1 = 0 && address.parts 2 = 0 && address.parts 3 = 0 &&
    address.parts 4 = 0 && address.parts 5 = 0
  toHextets address := (address.parts 6, address.parts 7)

def nat64LocalUseRule : EmbeddedIpv4Rule where
  applies address := address.parts 0 = 0x0064 && address.parts 1 = 0xff9b && address.parts 2 = 0x0001 &&
    address.parts 3 = 0 && address.parts 4 = 0 && address.parts 5 = 0
  toHextets address := (address.parts 6, address.parts 7)

def sixToFourRule : EmbeddedIpv4Rule where
  applies address := address.parts 0 = 0x2002
  toHextets address := (address.parts 1, address.parts 2)

/-- The address of the client is stored inverted. -/
def teredoRule : EmbeddedIpv4Rule where
  applies address := address.parts 0 = 0x2001 && address.parts 1 = 0
  toHextets address := (address.parts 6 ^^^ 0xffff, address.parts 7 ^^^ 0xffff)

def isatapRule : EmbeddedIpv4Rule where
  applies address := address.parts 4 &&& 0xfcff = 0 && address.parts 5 = 0x5efe
  toHextets address := (address.parts 6, address.parts 7)

def EMBEDDED_IPV4_SENTINEL_RULES : List EmbeddedIpv4Rule :=
  [ipv4CompatibleRule, nat64LocalUseRule, sixToFourRule, teredoRule, isatapRule]

/-- The text of the octets is left out: the library reads back what was joined. -/
def decodeIpv4FromHextets (hextets : BitVec 16 × BitVec 16) : IPv4 :=
  ⟨![(hextets.1 >>> 8).setWidth 8, hextets.1.setWidth 8, (hextets.2 >>> 8).setWidth 8, hextets.2.setWidth 8]⟩

def extractEmbeddedIpv4FromIpv6 (address : IPv6) : Option IPv4 :=
  if lib.isIPv4MappedAddress address then some (lib.toIPv4Address address)
  else if lib.range6 address = .rfc6145 then some (decodeIpv4FromHextets (address.parts 6, address.parts 7))
  else if lib.range6 address = .rfc6052 then some (decodeIpv4FromHextets (address.parts 6, address.parts 7))
  else (EMBEDDED_IPV4_SENTINEL_RULES.find? (·.applies address)).map fun rule =>
    decodeIpv4FromHextets (rule.toHextets address)

end OpenClaw.Net

/-!
# CIDR blocks

`isIpInCidr` compares an address with a block after taking IPv4 addresses out of their
IPv6 form on either side. A block is read here as a set of addresses of 128 bits, where
an IPv4 address stands at its place under `::ffff:0:0/96`.
-/

namespace OpenClaw.Net

open Js (Text trimChars)

-- ---
-- The check
-- ---

structure CidrLibrary extends IpLibrary where
  /-- `parseCIDR`, which throws or gives a base with the length of its prefix. -/
  parseCIDR? : Text → Option (ParsedIpAddress × Nat)
  match6 : IPv6 → IPv6 × Nat → Bool
  toString4 : IPv4 → Text
  toString6 : IPv6 → Text

variable (lib : CidrLibrary)

def normalizeIpv4MappedAddress : ParsedIpAddress → ParsedIpAddress
  | .ipv4 address => .ipv4 address
  | .ipv6 address =>
    if lib.isIPv4MappedAddress address then .ipv4 (lib.toIPv4Address address) else .ipv6 address

/-- Equal kinds and equal texts. -/
def sameAddress : ParsedIpAddress → ParsedIpAddress → Bool
  | .ipv4 a, .ipv4 b => lib.toString4 a = lib.toString4 b
  | .ipv6 a, .ipv6 b => lib.toString6 a = lib.toString6 b
  | _, _ => false

def matchesPrefix (comparableIp comparableBase : ParsedIpAddress) (prefixLength : Nat) : Bool :=
  match comparableIp, comparableBase with
  | .ipv4 a, .ipv4 b => lib.match4 a (b, prefixLength)
  | .ipv6 a, .ipv6 b => lib.match6 a (b, prefixLength)
  | _, _ => false

def isIpInCidr (ip cidr : Text) : Bool :=
  match parseCanonicalIpAddress lib.toIpLibrary ip with
  | none => false
  | some normalizedIp =>
    let candidate := trimChars cidr
    if candidate = [] then false
    else
      let comparableIp := normalizeIpv4MappedAddress lib normalizedIp
      if !candidate.contains '/' then
        match parseCanonicalIpAddress lib.toIpLibrary candidate with
        | none => false
        | some exact => sameAddress lib comparableIp (normalizeIpv4MappedAddress lib exact)
      else
        match lib.parseCIDR? candidate with
        | none => false
        | some (baseAddress, prefixLength) =>
          matchesPrefix lib comparableIp (normalizeIpv4MappedAddress lib baseAddress) prefixLength

-- ---
-- Addresses
-- ---

def IPv4.bits (address : IPv4) : BitVec 32 :=
  address.octets ⟨0, by decide⟩ ++ address.octets ⟨1, by decide⟩ ++ address.octets ⟨2, by decide⟩ ++
    address.octets ⟨3, by decide⟩

def IPv6.upper (address : IPv6) : BitVec 96 :=
  address.parts 0 ++ address.parts 1 ++ address.parts 2 ++ address.parts 3 ++ address.parts 4 ++
    address.parts 5

def IPv6.lower (address : IPv6) : BitVec 32 := address.parts 6 ++ address.parts 7

def IPv6.value (address : IPv6) : Nat := address.upper.toNat * 2 ^ 32 + address.lower.toNat

/-- An address of either family. -/
structure Address where
  upper : BitVec 96
  lower : BitVec 32
  zone : Option Text
  deriving DecidableEq

/-- The upper bits of `::ffff:0:0/96`. -/
def mappedUpper : BitVec 96 := 0xffff

def Address.value (address : Address) : Nat := address.upper.toNat * 2 ^ 32 + address.lower.toNat

/-- A zone means nothing to an IPv4 address. -/
def ParsedIpAddress.address : ParsedIpAddress → Address
  | .ipv4 address => ⟨mappedUpper, address.bits, none⟩
  | .ipv6 address =>
    ⟨address.upper, address.lower, if address.upper = mappedUpper then none else address.zoneId⟩

inductive Block
  | host (address : Address)
  | subnet (base : Address) (length : Nat)

def Block.Contains (address : Address) : Block → Prop
  | .host exact => address = exact
  | .subnet base length => SameLeading 128 length address.value base.value

/-- The length of the prefix counts the bits of the family the base is written in. -/
def ParsedIpAddress.block (base : ParsedIpAddress) (prefixLength : Nat) : Block :=
  match base with
  | .ipv4 _ => .subnet base.address (96 + prefixLength)
  | .ipv6 _ => .subnet base.address prefixLength

def cidrBlock (cidr : Text) : Option Block :=
  if !(trimChars cidr).contains '/' then
    (parseCanonicalIpAddress lib.toIpLibrary (trimChars cidr)).map fun exact => .host exact.address
  else (lib.parseCIDR? (trimChars cidr)).map fun parsed => parsed.1.block parsed.2

def LiesInBlock (ip cidr : Text) : Prop :=
  ∃ address block, parseCanonicalIpAddress lib.toIpLibrary ip = some address ∧
    cidrBlock lib cidr = some block ∧ block.Contains address.address

/-- The library reads an address by its bits, and prints it so that it can be told from
any other. -/
structure CidrLibrary.Lawful : Prop where
  isIPv4MappedAddress_iff (address : IPv6) :
    lib.isIPv4MappedAddress address = true ↔ address.upper = mappedUpper
  toIPv4Address_bits (address : IPv6) (h : lib.isIPv4MappedAddress address = true) :
    (lib.toIPv4Address address).bits = address.lower
  match4_iff (a b : IPv4) (n : Nat) :
    lib.match4 a (b, n) = true ↔ SameLeading 32 n a.bits.toNat b.bits.toNat
  match6_iff (a b : IPv6) (n : Nat) :
    lib.match6 a (b, n) = true ↔ SameLeading 128 n a.value b.value
  toString4_iff (a b : IPv4) : lib.toString4 a = lib.toString4 b ↔ a.bits = b.bits
  toString6_iff (a b : IPv6) :
    lib.toString6 a = lib.toString6 b ↔ a.upper = b.upper ∧ a.lower = b.lower ∧ a.zoneId = b.zoneId

-- ---
-- Families
-- ---

section
variable {lib} (h : lib.Lawful)
include h

/-- What is left of either family once the IPv4 addresses are taken out. -/
theorem normalizeIpv4MappedAddress_cases (parsed : ParsedIpAddress) :
    (∃ a, normalizeIpv4MappedAddress lib parsed = .ipv4 a ∧
      parsed.address = ⟨mappedUpper, a.bits, none⟩) ∨
    (∃ a, normalizeIpv4MappedAddress lib parsed = .ipv6 a ∧ a.upper ≠ mappedUpper ∧
      parsed.address = ⟨a.upper, a.lower, a.zoneId⟩) := by
  cases parsed with
  | ipv4 a => exact .inl ⟨a, rfl, rfl⟩
  | ipv6 a =>
    cases hmapped : lib.isIPv4MappedAddress a with
    | true =>
      have hupper := (h.isIPv4MappedAddress_iff a).mp hmapped
      refine .inl ⟨lib.toIPv4Address a, by simp [normalizeIpv4MappedAddress, hmapped], ?_⟩
      simp [ParsedIpAddress.address, hupper, h.toIPv4Address_bits a hmapped]
    | false =>
      have hupper : a.upper ≠ mappedUpper := by
        intro hupper
        simp [(h.isIPv4MappedAddress_iff a).mpr hupper] at hmapped
      exact .inr ⟨a, by simp [normalizeIpv4MappedAddress, hmapped], hupper,
        by simp [ParsedIpAddress.address, hupper]⟩

/-- Two addresses are the same when they are so across the families. -/
theorem sameAddress_iff (ip exact : ParsedIpAddress) :
    sameAddress lib (normalizeIpv4MappedAddress lib ip)
        (normalizeIpv4MappedAddress lib exact) = true ↔
      ip.address = exact.address := by
  obtain ⟨a, ha, hip⟩ | ⟨a, ha, hupper, hip⟩ := normalizeIpv4MappedAddress_cases h ip
  · obtain ⟨b, hb, hexact⟩ | ⟨b, hb, hupper', hexact⟩ := normalizeIpv4MappedAddress_cases h exact
    · simp [ha, hb, hip, hexact, sameAddress, h.toString4_iff]
    · simp [ha, hb, hip, hexact, sameAddress, Ne.symm hupper']
  · obtain ⟨b, hb, hexact⟩ | ⟨b, hb, hupper', hexact⟩ := normalizeIpv4MappedAddress_cases h exact
    · simp [ha, hb, hip, hexact, sameAddress, hupper]
    · simp [ha, hb, hip, hexact, sameAddress, h.toString6_iff]

/-- Away from the IPv4 addresses the prefix is compared as it is written. -/
theorem matchesPrefix_unmapped (ip base : ParsedIpAddress) (n : Nat)
    (hip : ip.address.upper ≠ mappedUpper) (hbase : base.address.upper ≠ mappedUpper) :
    matchesPrefix lib (normalizeIpv4MappedAddress lib ip)
        (normalizeIpv4MappedAddress lib base) n = true ↔
      SameLeading 128 n ip.address.value base.address.value := by
  obtain ⟨a, -, ha⟩ | ⟨a, ha, -, hip'⟩ := normalizeIpv4MappedAddress_cases h ip
  · simp [ha] at hip
  obtain ⟨b, -, hb⟩ | ⟨b, hb, -, hbase'⟩ := normalizeIpv4MappedAddress_cases h base
  · simp [hb] at hbase
  simp [ha, hb, hip', hbase', matchesPrefix, h.match6_iff, Address.value,
    IPv6.value]

/-- Where an IPv4 address takes part, the prefix counts from bit 96 on. -/
theorem matchesPrefix_mapped (ip base : ParsedIpAddress) (n : Nat)
    (hmapped : ip.address.upper = mappedUpper ∨ base.address.upper = mappedUpper) :
    matchesPrefix lib (normalizeIpv4MappedAddress lib ip)
        (normalizeIpv4MappedAddress lib base) n = true ↔
      SameLeading 128 (96 + n) ip.address.value base.address.value := by
  have hlower : SameLeading 128 (96 + n) ip.address.value base.address.value ↔
      ip.address.upper = base.address.upper ∧
        SameLeading 32 n ip.address.lower.toNat base.address.lower.toNat := by
    rw [BitVec.toNat_inj.symm]
    exact SameLeading.lower ip.address.lower.isLt base.address.lower.isLt
  rw [hlower]
  obtain ⟨a, ha, hip⟩ | ⟨a, ha, hupper, hip⟩ := normalizeIpv4MappedAddress_cases h ip
  · obtain ⟨b, hb, hbase⟩ | ⟨b, hb, hupper', hbase⟩ := normalizeIpv4MappedAddress_cases h base
    · simp [ha, hb, hip, hbase, matchesPrefix, h.match4_iff]
    · simp [ha, hb, hip, hbase, matchesPrefix, Ne.symm hupper']
  · obtain ⟨b, hb, hbase⟩ | ⟨b, hb, hupper', hbase⟩ := normalizeIpv4MappedAddress_cases h base
    · simp [ha, hb, hip, hbase, matchesPrefix, hupper]
    · simp [hip, hbase, hupper, hupper'] at hmapped

end

-- ---
-- Prefixes that are counted twice
-- ---

/-- A block of IPv6 addresses with an IPv4 address on either side: the address lies in
the block, and parts from its base within the next 96 bits. -/
def PartsBeyond (ip cidr : Text) : Prop :=
  ∃ address base n, parseCanonicalIpAddress lib.toIpLibrary ip = some address ∧
    '/' ∈ trimChars cidr ∧ lib.parseCIDR? (trimChars cidr) = some (.ipv6 base, n) ∧
    (address.address.upper = mappedUpper ∨ base.upper = mappedUpper) ∧
    SameLeading 128 n address.address.value (ParsedIpAddress.ipv6 base).address.value ∧
    ¬SameLeading 128 (96 + n) address.address.value (ParsedIpAddress.ipv6 base).address.value

theorem matchesPrefix_iff (h : lib.Lawful) (ip base : ParsedIpAddress) (n : Nat) :
    (matchesPrefix lib (normalizeIpv4MappedAddress lib ip)
          (normalizeIpv4MappedAddress lib base) n = true ↔
        (base.block n).Contains ip.address) ↔
      ¬∃ base', base = .ipv6 base' ∧ (ip.address.upper = mappedUpper ∨ base'.upper = mappedUpper) ∧
        SameLeading 128 n ip.address.value base.address.value ∧
        ¬SameLeading 128 (96 + n) ip.address.value base.address.value := by
  cases base with
  | ipv4 base =>
    have hmatches := matchesPrefix_mapped h ip (.ipv4 base) n (.inr rfl)
    simp [hmatches, ParsedIpAddress.block, Block.Contains]
  | ipv6 base =>
    by_cases hmapped : ip.address.upper = mappedUpper ∨ base.upper = mappedUpper
    · rw [matchesPrefix_mapped h ip (.ipv6 base) n hmapped]
      have hmono {b : Nat} : SameLeading 128 (96 + n) ip.address.value b →
          SameLeading 128 n ip.address.value b := SameLeading.mono (Nat.le_add_left n 96)
      simp only [ParsedIpAddress.block, Block.Contains, ParsedIpAddress.ipv6.injEq, exists_eq_left',
        hmapped, true_and, not_and, not_not]
      exact ⟨fun hiff => hiff.mpr, fun hin => ⟨hmono, hin⟩⟩
    · obtain ⟨hip, hbase⟩ := not_or.mp hmapped
      rw [matchesPrefix_unmapped h ip (.ipv6 base) n hip hbase]
      simp [ParsedIpAddress.block, Block.Contains, hip, hbase]

/-- The check agrees with the block exactly where no prefix is counted twice. -/
theorem isIpInCidr_iff_liesInBlock (h : lib.Lawful) (ip cidr : Text) :
    (isIpInCidr lib ip cidr = true ↔ LiesInBlock lib ip cidr) ↔ ¬PartsBeyond lib ip cidr := by
  unfold isIpInCidr LiesInBlock PartsBeyond cidrBlock
  cases hip : parseCanonicalIpAddress lib.toIpLibrary ip with
  | none => simp
  | some address =>
    by_cases hempty : trimChars cidr = []
    · have hnone : parseCanonicalIpAddress lib.toIpLibrary [] = none := rfl
      simp [hempty, hnone]
    by_cases hslash : '/' ∈ trimChars cidr
    · cases hparsed : lib.parseCIDR? (trimChars cidr) with
      | none => simp [hempty, hslash, hparsed]
      | some parsed =>
        obtain ⟨base, n⟩ := parsed
        have hiff := matchesPrefix_iff lib h address base n
        simp only [hempty, hslash, hparsed, List.contains_eq_mem, decide_true, Bool.not_true,
          if_false, Option.some.injEq, Option.map_some, exists_and_left, exists_eq_left',
          Prod.mk.injEq, true_and, Bool.false_eq_true]
        rw [hiff]
        refine not_congr ⟨?_, ?_⟩
        · rintro ⟨base', rfl, hrest⟩
          exact ⟨base', n, ⟨rfl, rfl⟩, hrest⟩
        · rintro ⟨base', n', ⟨rfl, rfl⟩, hrest⟩
          exact ⟨base', rfl, hrest⟩
    · cases hexact : parseCanonicalIpAddress lib.toIpLibrary (trimChars cidr) with
      | none => simp [hempty, hslash, hexact]
      | some exact =>
        have hsame := sameAddress_iff h address exact
        simp [hempty, hslash, hexact, hsame, Block.Contains]

-- ---
-- `::ffff:10.0.0.0/104`
-- ---

theorem append_shiftRight_setWidth (x : BitVec 16) :
    (x >>> 8).setWidth 8 ++ x.setWidth 8 = x := by
  apply BitVec.eq_of_getLsbD_eq
  intro i hi
  simp only [BitVec.getLsbD_append, BitVec.getLsbD_setWidth, BitVec.getLsbD_ushiftRight]
  by_cases hlow : i < 8
  · simp [hlow]
  · have hhigh : 8 + (i - 8) = i := by omega
    have hin : i - 8 < 8 := by omega
    simp [hlow, hhigh, hin]

theorem decodeIpv4FromHextets_bits (high low : BitVec 16) :
    (decodeIpv4FromHextets (high, low)).bits = high ++ low := by
  have hsplit : (decodeIpv4FromHextets (high, low)).bits =
      (high >>> 8).setWidth 8 ++ high.setWidth 8 ++ (low >>> 8).setWidth 8 ++ low.setWidth 8 := rfl
  rw [hsplit, append_shiftRight_setWidth, BitVec.append_assoc, append_shiftRight_setWidth]
  rfl

/-- A text that tells any two values apart. -/
def bitText (x : BitVec w) : Text :=
  (List.range w).map fun i => if x.getLsbD i then '1' else '0'

theorem bitText_inj (x y : BitVec w) : bitText x = bitText y ↔ x = y := by
  constructor
  · intro h
    apply BitVec.eq_of_getLsbD_eq
    intro i hi
    have hbit := List.map_inj_left.mp h i (List.mem_range.mpr hi)
    revert hbit
    cases x.getLsbD i <;> cases y.getLsbD i <;> decide
  · rintro rfl
    rfl

def zoneText : Option Text → Text
  | none => []
  | some zone => '%' :: zone

theorem zoneText_inj (a b : Option Text) : zoneText a = zoneText b ↔ a = b := by
  cases a <;> cases b <;> simp [zoneText]

def tenBlockBase : IPv6 where
  parts := ![0, 0, 0, 0, 0, 0xffff, 0x0a00, 0]

/-- What the library does with `10.1.2.3` and with the block; it prints bits. -/
def tenBlockLibrary : CidrLibrary where
  isValid4 literal := literal = "10.1.2.3".toList
  isValidFourPartDecimal literal := literal = "10.1.2.3".toList
  parse4 _ := ⟨![10, 1, 2, 3]⟩
  isValid6 _ := false
  parse6 _ := tenBlockBase
  parse? literal := if literal = "10.1.2.3".toList then some (.ipv4 ⟨![10, 1, 2, 3]⟩) else none
  range4 _ := .privateUse
  match4 address block := decide (SameLeading 32 block.2 address.bits.toNat block.1.bits.toNat)
  range6 _ := .other "ipv4Mapped"
  isIPv4MappedAddress address := address.upper = mappedUpper
  toIPv4Address address := decodeIpv4FromHextets (address.parts 6, address.parts 7)
  parseCIDR? literal :=
    if literal = "::ffff:10.0.0.0/104".toList then some (.ipv6 tenBlockBase, 104) else none
  match6 address block := decide (SameLeading 128 block.2 address.value block.1.value)
  toString4 address := bitText address.bits
  toString6 address := bitText address.upper ++ (bitText address.lower ++ zoneText address.zoneId)

theorem tenBlockLibrary_lawful : tenBlockLibrary.Lawful where
  isIPv4MappedAddress_iff _ := decide_eq_true_iff
  toIPv4Address_bits address _ := decodeIpv4FromHextets_bits (address.parts 6) (address.parts 7)
  match4_iff _ _ _ := decide_eq_true_iff
  match6_iff _ _ _ := decide_eq_true_iff
  toString4_iff a b := bitText_inj a.bits b.bits
  toString6_iff a b := by
    have hlength (w : Nat) (x y : BitVec w) : (bitText x).length = (bitText y).length := by
      simp [bitText]
    constructor
    · intro h
      obtain ⟨hupper, hrest⟩ := List.append_inj h (hlength 96 a.upper b.upper)
      obtain ⟨hlower, hzone⟩ := List.append_inj hrest (hlength 32 a.lower b.lower)
      exact ⟨(bitText_inj _ _).mp hupper, (bitText_inj _ _).mp hlower, (zoneText_inj _ _).mp hzone⟩
    · rintro ⟨hupper, hlower, hzone⟩
      show bitText a.upper ++ _ = bitText b.upper ++ _
      rw [hupper, hlower, hzone]

theorem tenBlock_parsed :
    parseCanonicalIpAddress tenBlockLibrary.toIpLibrary "10.1.2.3".toList =
      some (.ipv4 ⟨![10, 1, 2, 3]⟩) := by
  rfl

theorem tenBlock_block :
    cidrBlock tenBlockLibrary "::ffff:10.0.0.0/104".toList =
      some (.subnet (ParsedIpAddress.ipv6 tenBlockBase).address 104) := by
  rfl

/-- The address lies in the block, and the check denies it. -/
theorem isIpInCidr_iff_liesInBlock_tenBlock :
    ¬∀ lib : CidrLibrary, lib.Lawful → ∀ ip cidr : Text,
      (isIpInCidr lib ip cidr = true ↔ LiesInBlock lib ip cidr) := by
  intro hall
  have hiff := hall tenBlockLibrary tenBlockLibrary_lawful "10.1.2.3".toList
    "::ffff:10.0.0.0/104".toList
  have hlies : LiesInBlock tenBlockLibrary "10.1.2.3".toList "::ffff:10.0.0.0/104".toList := by
    refine ⟨_, _, tenBlock_parsed, tenBlock_block, ?_⟩
    show SameLeading 128 104 _ _
    decide
  have hallowed := hiff.mpr hlies
  revert hallowed
  decide

theorem isIpInCidr_iff_liesInBlock_parts :
    (isIpInCidr tenBlockLibrary "10.1.2.3".toList "::ffff:10.0.0.0/104".toList = true ↔
        LiesInBlock tenBlockLibrary "10.1.2.3".toList "::ffff:10.0.0.0/104".toList) ↔
      ¬PartsBeyond tenBlockLibrary "10.1.2.3".toList "::ffff:10.0.0.0/104".toList :=
  isIpInCidr_iff_liesInBlock tenBlockLibrary tenBlockLibrary_lawful _ _

end OpenClaw.Net
