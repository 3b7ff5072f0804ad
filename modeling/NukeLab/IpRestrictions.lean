import NukeLab.ClientAddress
import NukeLab.Networks
import NukeLab.State
import NukeLab.UuidTexts

namespace NukeLab.IpRestrictions

open Addresses Networks Tables Records State
open ClientAddress (startsWith)

def splitScopeId (cs : List Char) : Option (List Char) :=
  match cs.span (· ≠ '%') with
  | (addr, []) => some addr
  | (addr, _ :: scopeId) => if scopeId = [] ∨ '%' ∈ scopeId then none else some addr

def ipv6Address (cs : List Char) : Option (BitVec 128) := if '/' ∈ cs then none else (splitScopeId cs).bind parseV6

def ipAddress (text : String) : Option Address :=
  match parseV4 text.toList with
  | some bits => some (.v4 bits)
  | none => (ipv6Address text.toList).map Address.v6

def prefixFromPrefixString (maxLength : Nat) (cs : List Char) : Option Nat :=
  if cs = [] ∨ ¬ cs.all Char.isDigit then none
  else
    let length := digitsValue 10 decimal cs
    if length ≤ maxLength then some length else none

/-- How many of the lowest bits are zero. -/
def countRighthandZeroBits : Nat → Nat → Nat
  | _, 0 => 0
  | number, bits + 1 => if number % 2 = 1 then 0 else countRighthandZeroBits (number / 2) bits + 1

def prefixFromIpInt (bits : BitVec 32) : Option Nat :=
  let trailingZeroes := countRighthandZeroBits bits.toNat 32
  let length := 32 - trailingZeroes
  if bits.toNat >>> trailingZeroes = 2 ^ length - 1 then some length else none

/-- A mask may also be written as an address, with its ones first or last. -/
def prefixFromIpString (cs : List Char) : Option Nat :=
  (parseV4 cs).bind fun bits => prefixFromIpInt bits <|> prefixFromIpInt (~~~bits)

def makeNetwork {w : Nat} (base : BitVec w) (length : Nat) : Option (Network w) :=
  if hlength : length ≤ w then some ⟨base, length, hlength⟩ else none

def ipv4Network (addr : List Char) (mask : Option (List Char)) : Option (Network 32) := do
  let base ← parseV4 addr
  let length ← mask.elim (some 32) fun cs => prefixFromPrefixString 32 cs <|> prefixFromIpString cs
  makeNetwork base length

def ipv6Network (addr : List Char) (mask : Option (List Char)) : Option (Network 128) := do
  let base ← ipv6Address addr
  let length ← mask.elim (some 128) (prefixFromPrefixString 128)
  makeNetwork base length

inductive IpNetwork
  | v4 (network : Network 32)
  | v6 (network : Network 128)

/-- A range with bits set below its prefix is taken as well. -/
def ipNetwork (text : String) : Option IpNetwork :=
  let parse (addr : List Char) (mask : Option (List Char)) : Option IpNetwork :=
    (ipv4Network addr mask).map IpNetwork.v4 <|> (ipv6Network addr mask).map IpNetwork.v6
  match text.toList.splitOn '/' with
  | [addr] => parse addr none
  | [addr, mask] => parse addr (some mask)
  | _ => none

def IpNetwork.contains : IpNetwork → Address → Bool
  | .v4 network, .v4 bits => network.contains bits
  | .v6 network, .v6 bits => network.contains bits
  | _, _ => false

def ipMatches (clientIp pattern : String) : Bool :=
  match ipAddress clientIp, ipNetwork pattern with
  | some client, some network => network.contains client
  | _, _ => false

inductive RestrictionType
  | allow
  | block
  deriving DecidableEq

structure IPRestriction where
  id : Uuid
  ipRange : String
  restrictionType : RestrictionType
  isActive : Bool
  deriving DecidableEq

abbrev Restrictions := Table IPRestriction.id

def active (restrictions : Restrictions) : List IPRestriction := restrictions.rows.filter IPRestriction.isActive

def exemptPaths : List String := ["/api/health", "/health", "/api/docs", "/api/openapi.json", "/api/ws", "/ws"]

def exemptPrefixes : List String := ["/api/auth", "/api/admin/ip-restrictions"]

def isExempt (path : String) : Bool := exemptPrefixes.any (startsWith path) || exemptPaths.contains path

def denial (restrictions : List IPRestriction) (clientIp : String) : Option String :=
  if restrictions = [] then none
  else
    let allowlist := restrictions.filter fun r => r.restrictionType = .allow
    let blocklist := restrictions.filter fun r => r.restrictionType = .block
    if allowlist ≠ [] then
      if allowlist.any fun r => ipMatches clientIp r.ipRange then none else some "Access denied: IP not in allowlist"
    else if blocklist.any fun r => ipMatches clientIp r.ipRange then some "Access denied: IP blocked"
    else none

structure IPRestrictionCreate where
  ipRange : String
  restrictionType : RestrictionType
  hlength : 1 ≤ ipRange.length ∧ ipRange.length ≤ 50

def createIpRestriction (restrictions : Restrictions) (id : Uuid) (req : IPRestrictionCreate) (clientIp : String) :
    Except Raise Restrictions :=
  if (ipNetwork req.ipRange).isNone then .error (.http 422 ("Invalid IP range: " ++ req.ipRange))
  else if req.restrictionType = .block ∧ ipMatches clientIp req.ipRange then
    .error (.http 422 ("You cannot block your own IP address. " ++
      "If you want to restrict access, use an allowlist instead."))
  else .ok (restrictions.insert ⟨id, req.ipRange, req.restrictionType, true⟩)

def deleteIpRestriction (restrictions : Restrictions) (restrictionId : String) : Except Raise Restrictions :=
  match UuidTexts.parseUuid restrictionId with
  | none => .error (.http 400 "Invalid restriction ID")
  | some id =>
    match restrictions.find id with
    | none => .error (.http 404 "IP restriction not found")
    | some _ => .ok (restrictions.erase id)

example : ([("10.1.2.3", "10.0.0.0/8"), ("10.1.2.3", "10.9.9.9/255.0.0.0"), ("10.1.2.3", "10.0.0.0/0.255.255.255"),
    ("fe80::1%eth0", "fe80::/10"), ("::ffff:10.1.2.3", "10.0.0.0/8"), ("10.1.2.3", "10.0.0.0/33")].map fun p =>
    ipMatches p.1 p.2) = [true, true, true, true, false, false] := by decide +kernel

/-- Every address that the second range matches, the first one matches. -/
def coversRange (p q : String) : Bool :=
  match ipNetwork p, ipNetwork q with
  | some (.v4 n), some (.v4 m) => n.Covers m
  | some (.v6 n), some (.v6 m) => n.Covers m
  | _, _ => false

variable {restrictions restrictions' : Restrictions} {id : Uuid} {req : IPRestrictionCreate} {clientIp p q : String}

theorem ipMatches_of_covers (h : coversRange p q = true) (hq : ipMatches clientIp q = true) : ipMatches clientIp p = true := by
  rw [ipMatches] at hq ⊢
  rw [coversRange] at h
  cases hclient : ipAddress clientIp with
  | none =>
      rw [hclient] at hq
      cases hq
  | some client =>
      rw [hclient] at hq
      split at h
      next n m hn hm =>
        rw [hm] at hq
        rw [hn]
        cases client with
        | v4 bits => exact (of_decide_eq_true h).contains hq
        | v6 bits => cases hq
      next n m hn hm =>
        rw [hm] at hq
        rw [hn]
        cases client with
        | v4 bits => cases hq
        | v6 bits => exact (of_decide_eq_true h).contains hq
      · cases h

def Matched (type : RestrictionType) (rs : List IPRestriction) (clientIp : String) : Prop :=
  ∃ r ∈ rs, r.restrictionType = type ∧ ipMatches clientIp r.ipRange = true

def Restrictive (rs : List IPRestriction) : Prop := ∃ r ∈ rs, r.restrictionType = .allow

instance (type : RestrictionType) (rs : List IPRestriction) (clientIp : String) : Decidable (Matched type rs clientIp) :=
  inferInstanceAs (Decidable (∃ r ∈ rs, _))

instance (rs : List IPRestriction) : Decidable (Restrictive rs) := inferInstanceAs (Decidable (∃ r ∈ rs, _))

theorem any_filter_iff {type : RestrictionType} {rs : List IPRestriction} :
    ((rs.filter fun r => r.restrictionType = type).any fun r => ipMatches clientIp r.ipRange) = true ↔
      Matched type rs clientIp := by
  simp only [List.any_eq_true, List.mem_filter, decide_eq_true_eq, Matched, and_assoc]

theorem allowlist_ne_nil {rs : List IPRestriction} :
    (rs.filter fun r => r.restrictionType = .allow) ≠ [] ↔ Restrictive rs := by
  simp only [ne_eq, List.filter_eq_nil_iff, decide_eq_true_eq, not_forall, not_not, Restrictive, exists_prop]

theorem denial_eq (rs : List IPRestriction) (clientIp : String) : denial rs clientIp =
    if Restrictive rs then if Matched .allow rs clientIp then none else some "Access denied: IP not in allowlist"
    else if Matched .block rs clientIp then some "Access denied: IP blocked" else none := by
  rw [denial]
  split
  next hnil =>
    subst hnil
    rfl
  · dsimp only
    simp only [allowlist_ne_nil, any_filter_iff]

theorem denial_congr {rs rs' : List IPRestriction} (hmode : Restrictive rs ↔ Restrictive rs')
    (hmatched : ∀ type, Matched type rs clientIp ↔ Matched type rs' clientIp) : denial rs clientIp = denial rs' clientIp := by
  simp only [denial_eq, hmode, hmatched]

theorem mem_active {r : IPRestriction} : r ∈ active restrictions ↔ r ∈ restrictions.rows ∧ r.isActive = true := List.mem_filter

/-- Who adds a block is not the one it is for. -/
theorem block_spares_admin (h : createIpRestriction restrictions id req clientIp = .ok restrictions')
    (htype : req.restrictionType = .block) : denial (active restrictions') clientIp = denial (active restrictions) clientIp := by
  rw [createIpRestriction] at h
  split at h
  · cases h
  split at h
  · cases h
  next hown =>
    cases h
    have hadded : ∀ r ∈ active (restrictions.insert ⟨id, req.ipRange, req.restrictionType, true⟩),
        r ∈ active restrictions ∨ r.restrictionType = .block ∧ ipMatches clientIp r.ipRange = false := by
      intro r hr
      obtain ⟨hr, hactive⟩ := mem_active.mp hr
      obtain hold | rfl := Table.mem_or_eq_of_mem_insert hr
      · exact .inl (mem_active.mpr ⟨hold, hactive⟩)
      · refine .inr ⟨htype, Bool.eq_false_iff.mpr fun hmatch => hown ⟨htype, hmatch⟩⟩
    have hkept : ∀ r ∈ active restrictions, r ∈ active (restrictions.insert ⟨id, req.ipRange, req.restrictionType, true⟩) := by
      intro r hr
      obtain ⟨hr, hactive⟩ := mem_active.mp hr
      exact mem_active.mpr ⟨Table.mem_insert_of_mem hr, hactive⟩
    apply denial_congr
    · constructor
      · rintro ⟨r, hr, hallow⟩
        obtain hold | ⟨hblock, -⟩ := hadded r hr
        · exact ⟨r, hold, hallow⟩
        · rw [hblock] at hallow
          cases hallow
      · rintro ⟨r, hr, hallow⟩
        exact ⟨r, hkept r hr, hallow⟩
    · intro type
      constructor
      · rintro ⟨r, hr, hkind, hmatch⟩
        obtain hold | ⟨-, hnone⟩ := hadded r hr
        · exact ⟨r, hold, hkind, hmatch⟩
        · rw [hnone] at hmatch
          cases hmatch
      · rintro ⟨r, hr, hrest⟩
        exact ⟨r, hkept r hr, hrest⟩

def campus : IPRestriction := ⟨1, "10.0.0.0/8", .block, true⟩

def laboratory : IPRestriction := ⟨2, "10.1.2.3/16", .block, true⟩

def twoBlocks : Restrictions := ⟨[campus, laboratory], by decide⟩

theorem block_spares_admin_elsewhere :
    denial (active (twoBlocks.insert ⟨3, "192.168.0.0/16", .block, true⟩)) "172.16.0.9" =
      denial (active twoBlocks) "172.16.0.9" := by
  have haccepted : createIpRestriction twoBlocks 3 ⟨"192.168.0.0/16", .block, by decide⟩ "172.16.0.9" =
      .ok (twoBlocks.insert ⟨3, "192.168.0.0/16", .block, true⟩) := by rfl
  exact block_spares_admin haccepted rfl

/-- A restriction whose range another one of its kind has all of can go. -/
theorem covered_deletion {restrictionId : String} {r r' : IPRestriction}
    (h : deleteIpRestriction restrictions restrictionId = .ok restrictions')
    (hid : UuidTexts.parseUuid restrictionId = some r.id) (hr : r ∈ restrictions.rows) (hr' : r' ∈ active restrictions)
    (hne : r'.id ≠ r.id) (htype : r'.restrictionType = r.restrictionType) (hcovers : coversRange r'.ipRange r.ipRange = true)
    (clientIp : String) : denial (active restrictions') clientIp = denial (active restrictions) clientIp := by
  have hrest : restrictions' = restrictions.erase r.id := by
    rw [deleteIpRestriction, hid] at h
    dsimp only at h
    split at h
    · cases h
    · exact (Except.ok.inj h).symm
  subst hrest
  have hmem : ∀ s, s ∈ active (restrictions.erase r.id) ↔ s ∈ active restrictions ∧ s.id ≠ r.id := by
    intro s
    rw [mem_active, mem_active, Table.erase, Table.filter, List.mem_filter, decide_eq_true_iff]
    exact and_right_comm
  have hcovered : r' ∈ active (restrictions.erase r.id) := (hmem r').mpr ⟨hr', hne⟩
  have honly : ∀ s ∈ active restrictions, s.id = r.id → s = r := fun s hs hsid =>
    Table.eq_of_mem_of_key (mem_active.mp hs).1 hr hsid
  apply denial_congr
  · constructor
    · rintro ⟨s, hs, hallow⟩
      exact ⟨s, ((hmem s).mp hs).1, hallow⟩
    · rintro ⟨s, hs, hallow⟩
      by_cases hsid : s.id = r.id
      · obtain rfl := honly s hs hsid
        exact ⟨r', hcovered, htype.trans hallow⟩
      · exact ⟨s, (hmem s).mpr ⟨hs, hsid⟩, hallow⟩
  · intro type
    constructor
    · rintro ⟨s, hs, hrest⟩
      exact ⟨s, ((hmem s).mp hs).1, hrest⟩
    · rintro ⟨s, hs, hkind, hmatch⟩
      by_cases hsid : s.id = r.id
      · obtain rfl := honly s hs hsid
        exact ⟨r', hcovered, htype.trans hkind, ipMatches_of_covers hcovers hmatch⟩
      · exact ⟨s, (hmem s).mpr ⟨hs, hsid⟩, hkind, hmatch⟩

theorem covered_deletion_laboratory :
    denial (active (twoBlocks.erase 2)) "10.1.0.7" = denial (active twoBlocks) "10.1.0.7" := by
  have hdeleted : deleteIpRestriction twoBlocks "00000000-0000-0000-0000-000000000002" = .ok (twoBlocks.erase 2) := by rfl
  have hlaboratory : UuidTexts.parseUuid "00000000-0000-0000-0000-000000000002" = some laboratory.id := by decide +kernel
  have hcampus : campus ∈ active twoBlocks := by decide
  exact covered_deletion hdeleted hlaboratory (by decide) hcampus (by decide) rfl (by decide +kernel) _

end NukeLab.IpRestrictions
