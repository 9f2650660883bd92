import OpenClaw.Shared.Net.Ip

/-!
# Private addresses

`isPrivateIpAddress` is the guard in front of outgoing requests. An IPv6 address is
judged by its own range and by the one IPv4 address that is extracted from it, which
is that of the first scheme that applies.
-/

namespace OpenClaw.Net

open Js (Text trimChars lowerChar)

variable (lib : IpLibrary)

-- ---
-- The guard
-- ---

structure SsrFPolicy where
  allowRfc2544BenchmarkRange : Option Bool := none

/-- `resolveIpv4SpecialUseBlockOptions` -/
def allowsRfc2544BenchmarkRange (policy : Option SsrFPolicy) : Bool :=
  (policy.bind (·.allowRfc2544BenchmarkRange)) = some true

def looksLikeUnsupportedIpv4Literal (address : Text) : Bool :=
  let parts := address.splitOn '.'
  if parts.length = 0 || 4 < parts.length then false
  else if parts.any (· = []) then true
  else parts.all fun part => isDecimalPart part || isHexMarked part

def normalizeAddress (address : Text) : Text := stripIpv6Brackets ((trimChars address).map lowerChar)

def isPrivateIpAddress (address : Text) (policy : Option SsrFPolicy) : Bool :=
  let normalized := normalizeAddress address
  let allowRfc2544 := allowsRfc2544BenchmarkRange policy
  if normalized = [] then false
  else match parseCanonicalIpAddress lib normalized with
    | some (.ipv4 strictIp) => isBlockedSpecialUseIpv4Address lib strictIp allowRfc2544
    | some (.ipv6 strictIp) =>
      if isBlockedSpecialUseIpv6Address lib strictIp then true
      else match extractEmbeddedIpv4FromIpv6 lib strictIp with
        | some embeddedIpv4 => isBlockedSpecialUseIpv4Address lib embeddedIpv4 allowRfc2544
        | none => false
    | none =>
      if normalized.contains ':' && (parseLooseIpAddress lib normalized).isNone then true
      else if !isCanonicalDottedDecimalIPv4 lib normalized && isLegacyIpv4Literal lib normalized then true
      else looksLikeUnsupportedIpv4Literal normalized

-- ---
-- Schemes
-- ---

/-- The ways an IPv6 address carries an IPv4 address. Of the prefix for local use of
NAT64 the code takes the first `/96` only. -/
inductive EmbeddingScheme
  | ipv4Mapped
  | rfc6145
  | rfc6052
  | ipv4Compatible
  | nat64LocalUse
  | sixToFour
  | teredo
  | isatap
  | nat64LocalUsePrefix
  deriving DecidableEq

/-- The prefix of the scheme, or for ISATAP the marker in the interface identifier. -/
def EmbeddingScheme.covers (address : IPv6) : EmbeddingScheme → Bool
  | .ipv4Mapped => address.parts 0 = 0 && address.parts 1 = 0 && address.parts 2 = 0 && address.parts 3 = 0 &&
      address.parts 4 = 0 && address.parts 5 = 0xffff
  | .rfc6145 => address.parts 0 = 0 && address.parts 1 = 0 && address.parts 2 = 0 && address.parts 3 = 0 &&
      address.parts 4 = 0xffff && address.parts 5 = 0
  | .rfc6052 => address.parts 0 = 0x0064 && address.parts 1 = 0xff9b && address.parts 2 = 0 &&
      address.parts 3 = 0 && address.parts 4 = 0 && address.parts 5 = 0
  | .ipv4Compatible => ipv4CompatibleRule.applies address
  | .nat64LocalUse => nat64LocalUseRule.applies address
  | .sixToFour => sixToFourRule.applies address
  | .teredo => teredoRule.applies address
  | .isatap => isatapRule.applies address
  | .nat64LocalUsePrefix => address.parts 0 = 0x0064 && address.parts 1 = 0xff9b && address.parts 2 = 0x0001

def EmbeddingScheme.ipv4 (address : IPv6) : EmbeddingScheme → IPv4
  | .sixToFour => decodeIpv4FromHextets (address.parts 1, address.parts 2)
  | .teredo => decodeIpv4FromHextets (address.parts 6 ^^^ 0xffff, address.parts 7 ^^^ 0xffff)
  | _ => decodeIpv4FromHextets (address.parts 6, address.parts 7)

/-- The library goes by the registries of the IANA. -/
structure IpLibrary.Registry : Prop where
  mapped : ∀ address, lib.isIPv4MappedAddress address = EmbeddingScheme.ipv4Mapped.covers address
  toIPv4 : ∀ address, EmbeddingScheme.ipv4Mapped.covers address = true →
    lib.toIPv4Address address = EmbeddingScheme.ipv4Mapped.ipv4 address
  rfc6145 : ∀ address, lib.range6 address = .rfc6145 ↔ EmbeddingScheme.rfc6145.covers address = true
  rfc6052 : ∀ address, lib.range6 address = .rfc6052 ↔ EmbeddingScheme.rfc6052.covers address = true
  sixToFour : ∀ address, EmbeddingScheme.sixToFour.covers address = true → lib.range6 address = .other "6to4"
  teredo : ∀ address, EmbeddingScheme.teredo.covers address = true → lib.range6 address = .other "teredo"
  localUse : ∀ address, EmbeddingScheme.nat64LocalUsePrefix.covers address = true →
    lib.range6 address ∉ BLOCKED_IPV6_SPECIAL_USE_RANGES

/-- In the order they are tried. -/
def recognisedSchemes : List EmbeddingScheme :=
  [.ipv4Mapped, .rfc6145, .rfc6052, .ipv4Compatible, .nat64LocalUse, .sixToFour, .teredo, .isatap]

theorem extractEmbeddedIpv4_eq_find (h : lib.Registry) (address : IPv6) :
    extractEmbeddedIpv4FromIpv6 lib address =
      (recognisedSchemes.find? (·.covers address)).map (·.ipv4 address) := by
  unfold extractEmbeddedIpv4FromIpv6
  rw [h.mapped]
  split
  case isTrue hmapped =>
    rw [h.toIPv4 address hmapped, recognisedSchemes, List.find?_cons_of_pos hmapped]
    rfl
  case isFalse hmapped =>
    rw [recognisedSchemes, List.find?_cons_of_neg hmapped]
    split
    case isTrue hrange =>
      rw [List.find?_cons_of_pos ((h.rfc6145 address).1 hrange)]
      rfl
    case isFalse hrange =>
      rw [List.find?_cons_of_neg (mt (h.rfc6145 address).2 hrange)]
      split
      case isTrue hrange =>
        rw [List.find?_cons_of_pos ((h.rfc6052 address).1 hrange)]
        rfl
      case isFalse hrange =>
        rw [List.find?_cons_of_neg (mt (h.rfc6052 address).2 hrange)]
        simp only [EMBEDDED_IPV4_SENTINEL_RULES, List.find?_cons, EmbeddingScheme.covers]
        repeat' split
        all_goals rfl

/-- Any scheme but ISATAP, whose marker is not in the prefix, is the only one to apply. -/
theorem find_scheme {scheme : EmbeddingScheme} (hrecognised : scheme ∈ recognisedSchemes) (hne : scheme ≠ .isatap)
    (h : scheme.covers address = true) : recognisedSchemes.find? (·.covers address) = some scheme := by
  cases scheme with
  | isatap => exact absurd rfl hne
  | nat64LocalUsePrefix => simp [recognisedSchemes] at hrecognised
  | _ =>
    simp only [EmbeddingScheme.covers, ipv4CompatibleRule, nat64LocalUseRule, sixToFourRule, teredoRule,
      Bool.and_eq_true, decide_eq_true_eq, and_assoc] at h
    simp [recognisedSchemes, EmbeddingScheme.covers, ipv4CompatibleRule, nat64LocalUseRule, sixToFourRule, teredoRule,
      h]

theorem find_isatap (h : EmbeddingScheme.isatap.covers address = true)
    (hsixToFour : EmbeddingScheme.sixToFour.covers address = false)
    (hteredo : EmbeddingScheme.teredo.covers address = false) :
    recognisedSchemes.find? (·.covers address) = some .isatap := by
  have hmarker : address.parts 5 = 0x5efe := by
    simp only [EmbeddingScheme.covers, isatapRule, Bool.and_eq_true, decide_eq_true_eq] at h
    exact h.2
  simp only [recognisedSchemes, List.find?_cons, hsixToFour, hteredo, h]
  simp [EmbeddingScheme.covers, ipv4CompatibleRule, nat64LocalUseRule, hmarker]

theorem find_localUsePrefix (h : EmbeddingScheme.nat64LocalUsePrefix.covers address = true)
    (hlocalUse : EmbeddingScheme.nat64LocalUse.covers address = false)
    (hisatap : EmbeddingScheme.isatap.covers address = false) :
    recognisedSchemes.find? (·.covers address) = none := by
  simp only [EmbeddingScheme.covers, Bool.and_eq_true, decide_eq_true_eq, and_assoc] at h
  simp only [recognisedSchemes, List.find?_cons, hlocalUse, hisatap]
  simp [EmbeddingScheme.covers, ipv4CompatibleRule, sixToFourRule, teredoRule, h]

-- ---
-- The judgement
-- ---

theorem normalizeIpParseInput_nil : normalizeIpParseInput [] = none := rfl

/-- An IPv6 address is private by its range or by the first address extracted. -/
theorem isPrivateIpAddress_ipv6 (h : lib.Registry) {text : Text} (policy : Option SsrFPolicy)
    (hparse : parseCanonicalIpAddress lib (normalizeAddress text) = some (.ipv6 address)) :
    isPrivateIpAddress lib text policy = (isBlockedSpecialUseIpv6Address lib address ||
      (recognisedSchemes.find? (·.covers address)).any fun scheme =>
        isBlockedSpecialUseIpv4Address lib (scheme.ipv4 address) (allowsRfc2544BenchmarkRange policy)) := by
  have hne : normalizeAddress text ≠ [] := by
    intro hnil
    rw [hnil, parseCanonicalIpAddress, normalizeIpParseInput_nil] at hparse
    cases hparse
  rw [isPrivateIpAddress, if_neg hne, hparse]
  simp only [extractEmbeddedIpv4_eq_find lib h]
  cases isBlockedSpecialUseIpv6Address lib address <;>
    cases recognisedSchemes.find? (·.covers address) <;> simp

/-- A prefix scheme is tried first and hides the marker of ISATAP: the address of the
prefix is public, the one behind the marker is not. -/
def HidesIsatap (address : IPv6) (allowRfc2544 : Bool) : Prop :=
  ∃ outer, (outer = EmbeddingScheme.sixToFour ∨ outer = EmbeddingScheme.teredo) ∧ outer.covers address = true ∧
    isBlockedSpecialUseIpv4Address lib (outer.ipv4 address) allowRfc2544 = false ∧
    EmbeddingScheme.isatap.covers address = true ∧
    isBlockedSpecialUseIpv4Address lib (EmbeddingScheme.isatap.ipv4 address) allowRfc2544 = true

/-- In the prefix for local use of NAT64, but not in the part of it that is recognised. -/
def BeyondLocalUse (address : IPv6) (allowRfc2544 : Bool) : Prop :=
  EmbeddingScheme.nat64LocalUsePrefix.covers address = true ∧
    EmbeddingScheme.nat64LocalUse.covers address = false ∧ EmbeddingScheme.isatap.covers address = false ∧
    isBlockedSpecialUseIpv4Address lib (EmbeddingScheme.nat64LocalUsePrefix.ipv4 address) allowRfc2544 = true

theorem outer_not_blocked (h : lib.Registry) {outer : EmbeddingScheme}
    (houter : outer = .sixToFour ∨ outer = .teredo) (hcovers : outer.covers address = true) :
    isBlockedSpecialUseIpv6Address lib address = false := by
  unfold isBlockedSpecialUseIpv6Address
  rcases houter with rfl | rfl
  · rw [h.sixToFour address hcovers]
    simp only [EmbeddingScheme.covers, sixToFourRule, decide_eq_true_eq] at hcovers
    rw [hcovers]
    decide
  · rw [h.teredo address hcovers]
    simp only [EmbeddingScheme.covers, teredoRule, Bool.and_eq_true, decide_eq_true_eq] at hcovers
    rw [hcovers.1]
    decide

theorem localUse_not_blocked (h : lib.Registry) (hcovers : EmbeddingScheme.nat64LocalUsePrefix.covers address = true) :
    isBlockedSpecialUseIpv6Address lib address = false := by
  have hrange := h.localUse address hcovers
  simp only [EmbeddingScheme.covers, Bool.and_eq_true, decide_eq_true_eq, and_assoc] at hcovers
  unfold isBlockedSpecialUseIpv6Address
  rw [hcovers.1, Bool.or_eq_false_iff]
  exact ⟨by simpa using hrange, by decide⟩

section Judgement

variable (h : lib.Registry) {text : Text} (policy : Option SsrFPolicy)
  (hparse : parseCanonicalIpAddress lib (normalizeAddress text) = some (.ipv6 address))

include h hparse

theorem isPrivateIpAddress_first {scheme : EmbeddingScheme}
    (hfirst : recognisedSchemes.find? (·.covers address) = some scheme)
    (hblocked : isBlockedSpecialUseIpv4Address lib (scheme.ipv4 address) (allowsRfc2544BenchmarkRange policy) = true) :
    isPrivateIpAddress lib text policy = true := by
  rw [isPrivateIpAddress_ipv6 lib h policy hparse, hfirst, Option.any_some, hblocked, Bool.or_true]

theorem isPrivateIpAddress_hides
    (hhides : HidesIsatap lib address (allowsRfc2544BenchmarkRange policy)) :
    isPrivateIpAddress lib text policy = false := by
  obtain ⟨outer, houter, hcovers, hpublic, -, -⟩ := hhides
  have hfirst : recognisedSchemes.find? (·.covers address) = some outer := by
    refine find_scheme ?_ ?_ hcovers <;> rcases houter with rfl | rfl <;> simp [recognisedSchemes]
  rw [isPrivateIpAddress_ipv6 lib h policy hparse, hfirst, Option.any_some, hpublic,
    outer_not_blocked lib h houter hcovers]
  rfl

theorem isPrivateIpAddress_beyond
    (hbeyond : BeyondLocalUse lib address (allowsRfc2544BenchmarkRange policy)) :
    isPrivateIpAddress lib text policy = false := by
  obtain ⟨hcovers, hlocalUse, hisatap, -⟩ := hbeyond
  rw [isPrivateIpAddress_ipv6 lib h policy hparse, find_localUsePrefix hcovers hlocalUse hisatap,
    localUse_not_blocked lib h hcovers]
  rfl

/-- The marker of ISATAP is found unless a public prefix hides it. -/
theorem isPrivateIpAddress_isatap (hcovers : EmbeddingScheme.isatap.covers address = true)
    (hblocked : isBlockedSpecialUseIpv4Address lib (EmbeddingScheme.isatap.ipv4 address)
      (allowsRfc2544BenchmarkRange policy) = true)
    (hhides : ¬ HidesIsatap lib address (allowsRfc2544BenchmarkRange policy)) :
    isPrivateIpAddress lib text policy = true := by
  have houter : ∀ outer, (outer = EmbeddingScheme.sixToFour ∨ outer = EmbeddingScheme.teredo) →
      outer.covers address = true → isPrivateIpAddress lib text policy = true := by
    intro outer houter houterCovers
    have hfirst : recognisedSchemes.find? (·.covers address) = some outer := by
      refine find_scheme ?_ ?_ houterCovers <;> rcases houter with rfl | rfl <;> simp [recognisedSchemes]
    refine isPrivateIpAddress_first lib h policy hparse hfirst (Bool.not_eq_false _ ▸ fun hpublic => hhides ?_)
    exact ⟨outer, houter, houterCovers, hpublic, hcovers, hblocked⟩
  cases hsixToFour : EmbeddingScheme.sixToFour.covers address with
  | true => exact houter _ (.inl rfl) hsixToFour
  | false =>
    cases hteredo : EmbeddingScheme.teredo.covers address with
    | true => exact houter _ (.inr rfl) hteredo
    | false => exact isPrivateIpAddress_first lib h policy hparse (find_isatap hcovers hsixToFour hteredo) hblocked

theorem isPrivateIpAddress_recognised {scheme : EmbeddingScheme} (hne : scheme ≠ .nat64LocalUsePrefix)
    (hcovers : scheme.covers address = true)
    (hblocked : isBlockedSpecialUseIpv4Address lib (scheme.ipv4 address) (allowsRfc2544BenchmarkRange policy) = true)
    (hhides : ¬ HidesIsatap lib address (allowsRfc2544BenchmarkRange policy)) :
    isPrivateIpAddress lib text policy = true := by
  by_cases hisatap : scheme = .isatap
  · subst hisatap
    exact isPrivateIpAddress_isatap lib h policy hparse hcovers hblocked hhides
  · have hmem : scheme ∈ recognisedSchemes := by cases scheme <;> simp_all [recognisedSchemes]
    exact isPrivateIpAddress_first lib h policy hparse (find_scheme hmem hisatap hcovers) hblocked

/-- The schemes as they are recognised cover for each other but where a public prefix
hides the marker of ISATAP; the whole prefix for local use of NAT64 is not covered. -/
theorem isPrivateIpAddress_embedded_iff :
    ((∀ scheme, scheme ≠ EmbeddingScheme.nat64LocalUsePrefix → scheme.covers address = true →
        isBlockedSpecialUseIpv4Address lib (scheme.ipv4 address) (allowsRfc2544BenchmarkRange policy) = true →
          isPrivateIpAddress lib text policy = true) ↔
      ¬ HidesIsatap lib address (allowsRfc2544BenchmarkRange policy)) ∧
    ((∀ scheme : EmbeddingScheme, scheme.covers address = true →
        isBlockedSpecialUseIpv4Address lib (scheme.ipv4 address) (allowsRfc2544BenchmarkRange policy) = true →
          isPrivateIpAddress lib text policy = true) ↔
      ¬ HidesIsatap lib address (allowsRfc2544BenchmarkRange policy) ∧
        ¬ BeyondLocalUse lib address (allowsRfc2544BenchmarkRange policy)) := by
  have hhidden : HidesIsatap lib address (allowsRfc2544BenchmarkRange policy) →
      ¬ ∀ scheme, scheme ≠ EmbeddingScheme.nat64LocalUsePrefix → scheme.covers address = true →
        isBlockedSpecialUseIpv4Address lib (scheme.ipv4 address) (allowsRfc2544BenchmarkRange policy) = true →
          isPrivateIpAddress lib text policy = true := by
    intro hhides hall
    have hprivate := isPrivateIpAddress_hides lib h policy hparse hhides
    obtain ⟨_, _, _, _, hcovers, hblocked⟩ := hhides
    exact absurd (hprivate.symm.trans (hall .isatap nofun hcovers hblocked)) nofun
  refine ⟨⟨fun hall hhides => hhidden hhides hall, fun hhides scheme hne hcovers hblocked =>
    isPrivateIpAddress_recognised lib h policy hparse hne hcovers hblocked hhides⟩, fun hall => ⟨?_, ?_⟩, ?_⟩
  · exact fun hhides => hhidden hhides fun scheme _ => hall scheme
  · intro hbeyond
    have hprivate := isPrivateIpAddress_beyond lib h policy hparse hbeyond
    exact absurd (hprivate.symm.trans (hall _ hbeyond.1 hbeyond.2.2.2)) nofun
  · rintro ⟨hhides, hbeyond⟩ scheme hcovers hblocked
    by_cases hne : scheme = .nat64LocalUsePrefix
    · subst hne
      cases hlocalUse : EmbeddingScheme.nat64LocalUse.covers address with
      | true =>
        have hne : EmbeddingScheme.nat64LocalUse ≠ .nat64LocalUsePrefix := nofun
        exact isPrivateIpAddress_recognised lib h policy hparse hne hlocalUse hblocked hhides
      | false =>
        cases hisatap : EmbeddingScheme.isatap.covers address with
        | true => exact isPrivateIpAddress_isatap lib h policy hparse hisatap hblocked hhides
        | false => exact absurd ⟨hcovers, hlocalUse, hisatap, hblocked⟩ hbeyond
    · exact isPrivateIpAddress_recognised lib h policy hparse hne hcovers hblocked hhides

end Judgement

-- ---
-- An address
-- ---

/-- `2002:808:808::5efe:a00:1`: `8.8.8.8` by its prefix, `10.0.0.1` by its marker. -/
def maskedAddress : IPv6 where
  parts := ![0x2002, 0x0808, 0x0808, 0, 0, 0x5efe, 0x0a00, 0x0001]

/-- The ranges of the transition prefixes. -/
def transitionRange (address : IPv6) : Ipv6Range :=
  if EmbeddingScheme.rfc6145.covers address then .rfc6145
  else if EmbeddingScheme.rfc6052.covers address then .rfc6052
  else if EmbeddingScheme.sixToFour.covers address then .other "6to4"
  else if EmbeddingScheme.teredo.covers address then .other "teredo"
  else .other "unicast"

/-- What the library does with that literal, and with the ranges around it. -/
def maskedLibrary : IpLibrary where
  isValid4 _ := false
  isValidFourPartDecimal _ := false
  parse4 _ := ⟨![0, 0, 0, 0]⟩
  isValid6 literal := literal = "2002:808:808::5efe:a00:1".toList
  parse6 _ := maskedAddress
  parse? literal := if literal = "2002:808:808::5efe:a00:1".toList then some (.ipv6 maskedAddress) else none
  range4 address := if address.octets 0 = 10 then .privateUse else .other "unicast"
  match4 address _ := address.octets 0 = 198 && (address.octets 1 = 18 || address.octets 1 = 19)
  range6 := transitionRange
  isIPv4MappedAddress := EmbeddingScheme.ipv4Mapped.covers
  toIPv4Address := EmbeddingScheme.ipv4Mapped.ipv4

theorem covers_rfc6145 (h : EmbeddingScheme.rfc6145.covers address = true) : address.parts 0 = 0 := by
  simp only [EmbeddingScheme.covers, Bool.and_eq_true, decide_eq_true_eq, and_assoc] at h
  exact h.1

theorem covers_rfc6052 (h : EmbeddingScheme.rfc6052.covers address = true) : address.parts 0 = 0x64 := by
  simp only [EmbeddingScheme.covers, Bool.and_eq_true, decide_eq_true_eq, and_assoc] at h
  exact h.1

theorem transitionRange_rfc6145 (address : IPv6) :
    transitionRange address = .rfc6145 ↔ EmbeddingScheme.rfc6145.covers address = true := by
  unfold transitionRange
  repeat' split
  all_goals simp_all

theorem transitionRange_rfc6052 (address : IPv6) :
    transitionRange address = .rfc6052 ↔ EmbeddingScheme.rfc6052.covers address = true := by
  unfold transitionRange
  split
  case isTrue h =>
    refine iff_of_false nofun fun h' => ?_
    have hparts := (covers_rfc6145 h).symm.trans (covers_rfc6052 h')
    revert hparts
    decide
  case isFalse =>
    repeat' split
    all_goals simp_all

theorem transitionRange_sixToFour (h : EmbeddingScheme.sixToFour.covers address = true) :
    transitionRange address = .other "6to4" := by
  have hparts : address.parts 0 = 0x2002 := by simpa [EmbeddingScheme.covers, sixToFourRule] using h
  unfold transitionRange
  rw [if_neg, if_neg, if_pos h]
  · simp [EmbeddingScheme.covers, hparts]
  · simp [EmbeddingScheme.covers, hparts]

theorem transitionRange_teredo (h : EmbeddingScheme.teredo.covers address = true) :
    transitionRange address = .other "teredo" := by
  have hparts : address.parts 0 = 0x2001 ∧ address.parts 1 = 0 := by
    simpa [EmbeddingScheme.covers, teredoRule] using h
  unfold transitionRange
  rw [if_neg, if_neg, if_neg, if_pos h]
  · simp [EmbeddingScheme.covers, sixToFourRule, hparts]
  · simp [EmbeddingScheme.covers, hparts]
  · simp [EmbeddingScheme.covers, hparts]

theorem transitionRange_public (address : IPv6) : transitionRange address ∉ BLOCKED_IPV6_SPECIAL_USE_RANGES := by
  unfold transitionRange
  repeat' split
  all_goals decide

theorem maskedLibrary_registry : maskedLibrary.Registry where
  mapped _ := rfl
  toIPv4 _ _ := rfl
  rfc6145 := transitionRange_rfc6145
  rfc6052 := transitionRange_rfc6052
  sixToFour _ := transitionRange_sixToFour
  teredo _ := transitionRange_teredo
  localUse address _ := transitionRange_public address

theorem isPrivateIpAddress_embedded_iff_masked :
    HidesIsatap maskedLibrary maskedAddress false ∧
      ¬ ∀ scheme : EmbeddingScheme, scheme.covers maskedAddress = true →
        isBlockedSpecialUseIpv4Address maskedLibrary (scheme.ipv4 maskedAddress) false = true →
          isPrivateIpAddress maskedLibrary "2002:808:808::5efe:a00:1".toList none = true := by
  have hhides : HidesIsatap maskedLibrary maskedAddress false :=
    ⟨.sixToFour, .inl rfl, by decide, by decide, by decide, by decide⟩
  refine ⟨hhides, fun hall => ?_⟩
  have hparse : parseCanonicalIpAddress maskedLibrary (normalizeAddress "2002:808:808::5efe:a00:1".toList) =
      some (.ipv6 maskedAddress) := rfl
  exact ((isPrivateIpAddress_embedded_iff maskedLibrary maskedLibrary_registry none hparse).2.1 hall).1 hhides

theorem not_isPrivateIpAddress_embedded :
    ¬ ∀ (lib : IpLibrary), lib.Registry → ∀ text policy address,
      parseCanonicalIpAddress lib (normalizeAddress text) = some (.ipv6 address) →
        ∀ scheme ∈ recognisedSchemes, scheme.covers address = true →
          isBlockedSpecialUseIpv4Address lib (scheme.ipv4 address) (allowsRfc2544BenchmarkRange policy) = true →
            isPrivateIpAddress lib text policy = true := by
  intro hall
  have hprivate := hall maskedLibrary maskedLibrary_registry "2002:808:808::5efe:a00:1".toList none maskedAddress
    rfl .isatap (by decide) (by decide) (by decide)
  revert hprivate
  decide

end OpenClaw.Net
