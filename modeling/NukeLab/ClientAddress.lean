import Mathlib.Data.List.TakeWhile
import NukeLab.Addresses
import NukeLab.Texts

namespace NukeLab.ClientAddress

open Addresses

def strip (text : String) : String := String.ofList (Texts.strip text.toList)

/-- The peer of a connection, as the server names it by its address. -/
structure Client where
  host : String
  nonblank : strip host ≠ ""
  single : ',' ∉ host.toList

/-- Where a request says that it comes from. Of several headers with one name the first counts. -/
structure Request where
  client : Option Client
  xForwardedFor : Option String
  xRealIp : Option String

def directIp (r : Request) : String := (r.client.map Client.host).getD "unknown"

def startsWith (ip start : String) : Bool := start.toList.isPrefixOf ip.toList

def isTrustedProxy (ip : String) : Bool :=
  ip = "127.0.0.1" || ip = "::1" || ip = "localhost" || startsWith ip "172." || startsWith ip "10." ||
    startsWith ip "192.168."

def inTrustedRanges : Address → Bool
  | .v4 bits =>
    inNetwork 0x7f000000 8 bits || inNetwork 0xac100000 12 bits || inNetwork 0x0a000000 8 bits ||
      inNetwork 0xc0a80000 16 bits
  | .v6 bits => bits = 1

def isListedProxy (ip : String) : Bool := (parseIP ip).any inTrustedRanges

def firstHop (forwarded : String) : String := strip (String.ofList (forwarded.toList.takeWhile (· ≠ ',')))

def originalIp (r : Request) : Option String := ((r.xForwardedFor.filter (· ≠ "")).map firstHop).filter (· ≠ "")

def realIp (r : Request) : Option String := r.xRealIp.filter (· ≠ "")

def RateLimitMiddleware.getClientIp (r : Request) : String :=
  if ¬ isTrustedProxy (directIp r) then directIp r
  else
    match originalIp r with
    | some original => original
    | none =>
      match realIp r with
      | some ip => ip
      | none => directIp r

def IpRestriction.getClientIp (r : Request) : String :=
  match originalIp r with
  | some first => first
  | none =>
    match realIp r with
    | some ip => strip ip
    | none => directIp r

def RateLimiter.clientIp (r : Request) : String :=
  let ip := r.xForwardedFor.getD (directIp r)
  if ',' ∈ ip.toList then firstHop ip else ip

/-- One address everywhere, and another one than the peer's only where the peer
is a proxy of the listed ranges. -/
structure Concordant (r : Request) : Prop where
  restriction : IpRestriction.getClientIp r = RateLimitMiddleware.getClientIp r
  limiter : RateLimiter.clientIp r = RateLimitMiddleware.getClientIp r
  honoured : RateLimitMiddleware.getClientIp r ≠ directIp r → isListedProxy (directIp r)

/-- Without hops, the other header names the peer itself if anything; with them,
the first is not blank, stands bare where it stands alone, and names the peer or
comes from one that is both listed and trusted. -/
def Plain (r : Request) : Prop :=
  match r.xForwardedFor with
  | none => ∀ ip ∈ r.xRealIp, ip ≠ "" → strip ip = directIp r ∧ (isTrustedProxy (directIp r) → ip = directIp r)
  | some forwarded =>
    firstHop forwarded ≠ "" ∧ (',' ∈ forwarded.toList ∨ forwarded = firstHop forwarded) ∧
      (firstHop forwarded = directIp r ∨ isTrustedProxy (directIp r) ∧ isListedProxy (directIp r))

variable {r : Request} {forwarded : String}

theorem strip_directIp (r : Request) : strip (directIp r) ≠ "" := by
  unfold directIp
  cases r.client with
  | none => decide
  | some client => exact client.nonblank

theorem no_comma_directIp (r : Request) : ',' ∉ (directIp r).toList := by
  unfold directIp
  cases r.client with
  | none => decide
  | some client => exact client.single

theorem directIp_ne_empty (r : Request) : directIp r ≠ "" := by
  intro h
  apply strip_directIp r
  rw [h]
  rfl

theorem realIp_eq_some {ip : String} : realIp r = some ip ↔ r.xRealIp = some ip ∧ ip ≠ "" := by
  rw [realIp, Option.filter_eq_some_iff, decide_eq_true_iff]

theorem originalIp_of_none (h : r.xForwardedFor = none) : originalIp r = none := by
  rw [originalIp, h]
  rfl

theorem originalIp_of_blank (h : r.xForwardedFor = some forwarded) (hblank : firstHop forwarded = "") :
    originalIp r = none := by
  rw [originalIp, h, Option.filter_some]
  split
  · rw [Option.map_some, hblank]
    rfl
  · rfl

theorem originalIp_of_hop (h : r.xForwardedFor = some forwarded) (hhop : firstHop forwarded ≠ "") :
    originalIp r = some (firstHop forwarded) := by
  have hne : forwarded ≠ "" := by
    rintro rfl
    exact hhop rfl
  have hpresent : (some forwarded).filter (· ≠ "") = some forwarded := Option.filter_some_pos (decide_eq_true hne)
  rw [originalIp, h, hpresent]
  exact Option.filter_some_pos (decide_eq_true hhop)

theorem firstHop_of_no_comma (h : ',' ∉ forwarded.toList) : firstHop forwarded = strip forwarded := by
  have hall : forwarded.toList.takeWhile (· ≠ ',') = forwarded.toList := by
    apply List.takeWhile_eq_self_iff.mpr
    intro c hc
    exact decide_eq_true fun heq => h (heq ▸ hc)
  rw [firstHop, hall, String.ofList_toList]

theorem getClientIp_of_no_hop (h : originalIp r = none) :
    RateLimitMiddleware.getClientIp r = directIp r ∨
      isTrustedProxy (directIp r) ∧ ∃ ip, realIp r = some ip ∧ RateLimitMiddleware.getClientIp r = ip := by
  rw [RateLimitMiddleware.getClientIp, h]
  by_cases htrusted : isTrustedProxy (directIp r)
  · rw [if_neg (not_not.mpr htrusted)]
    cases hreal : realIp r with
    | none => exact Or.inl rfl
    | some ip => exact Or.inr ⟨htrusted, ip, rfl, rfl⟩
  · exact Or.inl (if_pos htrusted)

theorem not_concordant_of_blank (h : r.xForwardedFor = some forwarded) (hblank : firstHop forwarded = "") :
    ¬ Concordant r := by
  intro hc
  have hlimiter := hc.limiter
  have hrestriction := hc.restriction
  rw [RateLimiter.clientIp, h, Option.getD_some] at hlimiter
  rw [IpRestriction.getClientIp, originalIp_of_blank h hblank] at hrestriction
  have hcases := getClientIp_of_no_hop (originalIp_of_blank h hblank)
  by_cases hcomma : ',' ∈ forwarded.toList
  · rw [if_pos hcomma, hblank] at hlimiter
    rw [← hlimiter] at hcases
    rcases hcases with hdirect | ⟨-, ip, hreal, hip⟩
    · exact directIp_ne_empty r hdirect.symm
    · exact (realIp_eq_some.mp hreal).2 hip.symm
  · rw [if_neg hcomma] at hlimiter
    rw [firstHop_of_no_comma hcomma] at hblank
    rw [← hlimiter] at hcases hrestriction
    rcases hcases with hdirect | ⟨-, ip, hreal, hip⟩
    · exact strip_directIp r (hdirect ▸ hblank)
    · rw [hreal] at hrestriction
      dsimp only at hrestriction
      rw [← hip, hblank] at hrestriction
      exact (realIp_eq_some.mp hreal).2 (hip.symm.trans hrestriction.symm)

theorem concordant_of_hop (h : r.xForwardedFor = some forwarded) (hhop : firstHop forwarded ≠ "") :
    Concordant r ↔ (',' ∈ forwarded.toList ∨ forwarded = firstHop forwarded) ∧
      (firstHop forwarded = directIp r ∨ isTrustedProxy (directIp r) ∧ isListedProxy (directIp r)) := by
  have hrestriction : IpRestriction.getClientIp r = firstHop forwarded := by
    rw [IpRestriction.getClientIp, originalIp_of_hop h hhop]
  have hmiddleware : RateLimitMiddleware.getClientIp r =
      if ¬ isTrustedProxy (directIp r) then directIp r else firstHop forwarded := by
    rw [RateLimitMiddleware.getClientIp, originalIp_of_hop h hhop]
  have hlimiter : RateLimiter.clientIp r = if ',' ∈ forwarded.toList then firstHop forwarded else forwarded := by
    rw [RateLimiter.clientIp, h, Option.getD_some]
  constructor
  · intro hc
    have hsame := hc.restriction
    have hbare := hc.limiter.trans hc.restriction.symm
    rw [hlimiter, hrestriction] at hbare
    refine ⟨?_, ?_⟩
    · by_cases hcomma : ',' ∈ forwarded.toList
      · exact Or.inl hcomma
      · rw [if_neg hcomma] at hbare
        exact Or.inr hbare
    · by_cases hself : firstHop forwarded = directIp r
      · exact Or.inl hself
      · rw [hrestriction] at hsame
        refine Or.inr ⟨?_, hc.honoured fun hdirect => hself (hsame.trans hdirect)⟩
        by_contra htrusted
        rw [hmiddleware, if_pos htrusted] at hsame
        exact hself hsame
  · rintro ⟨hbare, horigin⟩
    have hsame : RateLimitMiddleware.getClientIp r = firstHop forwarded := by
      rw [hmiddleware]
      split
      · rename_i huntrusted
        exact (horigin.resolve_right fun hlisted => huntrusted hlisted.1).symm
      · rfl
    refine ⟨hrestriction.trans hsame.symm, ?_, fun hne => ?_⟩
    · rw [hsame, hlimiter]
      split
      · rfl
      · rename_i hcomma
        exact hbare.resolve_left hcomma
    · rw [hsame] at hne
      exact (horigin.resolve_left hne).2

theorem concordant_of_none (h : r.xForwardedFor = none) :
    Concordant r ↔
      ∀ ip ∈ r.xRealIp, ip ≠ "" → strip ip = directIp r ∧ (isTrustedProxy (directIp r) → ip = directIp r) := by
  have hlimiter : RateLimiter.clientIp r = directIp r := by
    rw [RateLimiter.clientIp, h]
    exact if_neg (no_comma_directIp r)
  have hrestriction : ∀ ip, realIp r = some ip → IpRestriction.getClientIp r = strip ip := by
    intro ip hreal
    rw [IpRestriction.getClientIp, originalIp_of_none h, hreal]
  have hmiddleware : ∀ ip, realIp r = some ip → isTrustedProxy (directIp r) → RateLimitMiddleware.getClientIp r = ip := by
    intro ip hreal htrusted
    rw [RateLimitMiddleware.getClientIp, if_neg (not_not.mpr htrusted), originalIp_of_none h, hreal]
  have hcases := getClientIp_of_no_hop (originalIp_of_none h)
  constructor
  · intro hc ip hip hne
    have hreal := realIp_eq_some.mpr ⟨hip, hne⟩
    have hdirect := hlimiter.symm.trans hc.limiter
    refine ⟨?_, fun htrusted => ?_⟩
    · rw [hdirect, ← hc.restriction, hrestriction ip hreal]
    · rw [hdirect, hmiddleware ip hreal htrusted]
  · intro hplain
    have hdirect : RateLimitMiddleware.getClientIp r = directIp r := by
      rcases hcases with hdirect | ⟨htrusted, ip, hreal, hip⟩
      · exact hdirect
      · obtain ⟨hmem, hne⟩ := realIp_eq_some.mp hreal
        rw [hip]
        exact (hplain ip hmem hne).2 htrusted
    refine ⟨?_, hlimiter.trans hdirect.symm, fun hne => absurd hdirect hne⟩
    rw [hdirect]
    cases hreal : realIp r with
    | none => rw [IpRestriction.getClientIp, originalIp_of_none h, hreal]
    | some ip =>
        obtain ⟨hmem, hne⟩ := realIp_eq_some.mp hreal
        rw [hrestriction ip hreal]
        exact (hplain ip hmem hne).1

/-- The three ways of telling the address agree exactly on these requests. -/
theorem concordant_iff (r : Request) : Concordant r ↔ Plain r := by
  unfold Plain
  cases h : r.xForwardedFor with
  | none => exact concordant_of_none h
  | some forwarded =>
      by_cases hhop : firstHop forwarded = ""
      · exact iff_of_false (not_concordant_of_blank h hhop) fun hplain => hplain.1 hhop
      · rw [concordant_of_hop h hhop]
        exact (and_iff_right hhop).symm

def outsider : Client := ⟨"203.0.113.7", by decide, by decide⟩

def posing : Request := ⟨some outsider, some "198.51.100.9", none⟩

theorem addresses_differ : ¬ ∀ r : Request, Concordant r := by
  intro h
  have hsame := (h posing).restriction
  revert hsame
  decide +kernel

/-- A peer that only its first digits make a proxy. -/
example : isTrustedProxy "172.67.1.1" ∧ ¬ isListedProxy "172.67.1.1" ∧ isListedProxy "127.0.0.2" ∧
    ¬ isTrustedProxy "127.0.0.2" := by decide +kernel

end NukeLab.ClientAddress
