import NukeLab.Dictionaries
import NukeLab.Interleaving
import NukeLab.Records

namespace NukeLab.KeyRotation

open Dictionaries Interleaving Machine Records

/-- The public half of a private key, and the id of a public key. -/
structure Scheme (κ π : Type) where
  publicOf : κ → π
  keyId : π → String

structure KeySettings where
  jwtExpireMinutes : Int
  leeway : Instant
  rotationGrace : Option Instant
  leeway_nonneg : 0 ≤ leeway

/-- How long a retired key is kept, which is twice the life of a token where it is not set. -/
def KeySettings.grace (settings : KeySettings) : Instant :=
  settings.rotationGrace.getD (settings.jwtExpireMinutes * 2 * minute)

/-- A life of no time is taken for none given. -/
def KeySettings.lifetime (settings : KeySettings) : Option Instant → Instant
  | some expiresDelta => if expiresDelta = 0 then settings.jwtExpireMinutes * minute else expiresDelta
  | none => settings.jwtExpireMinutes * minute

/-- Where no grace is set a retired key outlives every token it has signed. -/
theorem KeySettings.lifetime_le_grace (settings : KeySettings) (h : settings.rotationGrace = none)
    (hminutes : 0 ≤ settings.jwtExpireMinutes) : settings.lifetime none ≤ settings.grace := by
  have hminute : 0 ≤ minute := by decide
  have hlife : 0 ≤ settings.jwtExpireMinutes * minute := Int.mul_nonneg hminutes hminute
  rw [grace, h, Option.getD_none, Int.mul_right_comm]
  change settings.jwtExpireMinutes * minute ≤ settings.jwtExpireMinutes * minute * 2
  omega

/-- What of a token is checked against the keys and the clock. It is signed with the private key
`key`, and has a `sub`, which decoding asks for. -/
structure Token (κ : Type) where
  kid : String
  key : κ
  iat : Instant
  exp : Instant
deriving DecidableEq

/-- A file `user-auth-public-<kid>.pem`, which has the id of its key in its name. -/
structure RetiredFile (π : Type) where
  pem : π
  mtime : Instant

/-- What a worker's manager has read, as long as it remembers the time of the file. -/
structure Loaded (κ π : Type) where
  activePrivateKey : κ
  activePublicPem : π
  keyRing : Dict String π
  lastMtime : Instant

/-- The files, the managers of the workers, the tokens they have issued and the keys that have been drawn. -/
structure Vault (κ π : Type) where
  privateFile : Option (κ × Instant)
  publicFile : Option π
  retired : List (RetiredFile π)
  managers : Nat → Option (Loaded κ π)
  issued : List (Token κ)
  drawn : List κ
  latest : Instant

inductive Request (κ : Type)
  | createAccessToken (worker : Nat) (expiresDelta : Option Instant)
  | decodeAccessToken (worker : Nat) (token : Token κ)
  | rotate (cleanup : Bool)

inductive Use (κ : Type)
  | keyId (iat exp : Instant)
  | privateKey (kid : String) (iat exp : Instant)
  | publicKeyFor (token : Token κ)
deriving DecidableEq

inductive Verdict
  | accepted
  | unknownKeyId
  | invalidSignature
  | immature
  | expired
deriving DecidableEq

inductive Call (κ π : Type)
  | create (worker : Nat) (expiresDelta : Option Instant)
  | decode (worker : Nat) (token : Token κ)
  | rotate (cleanup : Bool)
  | ensuring (worker : Nat) (use : Use κ) (again : Bool)
  | statting (worker : Nat) (use : Use κ) (again : Bool)
  | readingPrivate (worker : Nat) (use : Use κ) (mtime : Instant)
  | readingPublic (worker : Nat) (use : Use κ) (mtime : Instant) (key : κ)
  | readingRetired (worker : Nat) (use : Use κ) (mtime : Instant) (key : κ) (pem : π)
  | loaded (cleanup : Bool) (old : Option π)
  | moved (cleanup : Bool) (old : Option π)
  | written (cleanup : Bool) (old : Option π) (key : κ) (mtime : Instant)
  | replaced (cleanup : Bool) (old : Option π) (key : κ)
  | published (cleanup : Bool) (old : Option π)
  | preserved (cleanup : Bool)
  | created
  | decoded (token : Token κ) (verdict : Verdict)
  | raised
  | rotated
deriving DecidableEq

structure Answer (κ : Type) where
  now : Instant
  key : κ

section

variable {κ π : Type}

def begin : Request κ → Call κ π
  | .createAccessToken worker expiresDelta => .create worker expiresDelta
  | .decodeAccessToken worker token => .decode worker token
  | .rotate cleanup => .rotate cleanup

def wholeSeconds (t : Instant) : Instant := t / second * second

variable [DecidableEq π] (scheme : Scheme κ π) (settings : KeySettings)

/-- The checks in the order in which the library makes them. -/
def decode (ring : Dict String π) (token : Token κ) (now : Instant) : Verdict :=
  match ring.get token.kid with
  | none => .unknownKeyId
  | some pem =>
    if scheme.publicOf token.key ≠ pem then .invalidSignature
    else if token.iat > now + settings.leeway then .immature
    else if token.exp ≤ now - settings.leeway then .expired
    else .accepted

def use (s : Vault κ π) (worker : Nat) (loaded : Loaded κ π) (now : Instant) : Use κ → Vault κ π × Call κ π
  | .keyId iat exp => (s, .ensuring worker (.privateKey (scheme.keyId loaded.activePublicPem) iat exp) false)
  | .privateKey kid iat exp => ({ s with issued := s.issued ++ [⟨kid, loaded.activePrivateKey, iat, exp⟩] }, .created)
  | .publicKeyFor token => (s, .decoded token (decode scheme settings loaded.keyRing token now))

def ringOf (pem : π) (retired : List (RetiredFile π)) : Dict String π :=
  (Dict.empty.put (scheme.keyId pem) pem).putAll (retired.map fun file => (scheme.keyId file.pem, file.pem))

def reload (s : Vault κ π) (worker : Nat) (loaded : Loaded κ π) : Vault κ π :=
  { s with managers := Function.update s.managers worker (some loaded) }

def forget (s : Vault κ π) (worker : Nat) : Vault κ π := { s with managers := Function.update s.managers worker none }

/-- The file of a retired key is written anew where there is one of its name. -/
def preserve (s : Vault κ π) (pem : π) (now : Instant) : Vault κ π :=
  { s with retired := (s.retired.filter fun file => scheme.keyId file.pem ≠ scheme.keyId pem) ++ [⟨pem, now⟩] }

def cleanupRetiredKeys (s : Vault κ π) (now : Instant) : Vault κ π :=
  { s with retired := s.retired.filter fun file => ¬ file.mtime < now - settings.grace }

/-- Keys that are missing are not made up for in production. -/
def turn (s : Vault κ π) (answer : Answer κ) : Call κ π → Option (Vault κ π × Call κ π)
  | .create worker expiresDelta =>
    let exp := answer.now + settings.lifetime expiresDelta
    some (s, .ensuring worker (.keyId (wholeSeconds answer.now) (wholeSeconds exp)) false)
  | .decode worker token => some (s, .ensuring worker (.publicKeyFor token) false)
  | .ensuring worker asked again =>
    if s.privateFile.isSome && s.publicFile.isSome then some (s, .statting worker asked again) else some (s, .raised)
  | .statting worker asked again =>
    match s.privateFile with
    | none => if again then some (s, .raised) else some (forget s worker, .ensuring worker asked true)
    | some (_, mtime) =>
      match s.managers worker with
      | none => some (s, .readingPrivate worker asked mtime)
      | some loaded =>
        if loaded.lastMtime = mtime then some (use scheme settings s worker loaded answer.now asked)
        else some (s, .readingPrivate worker asked mtime)
  | .readingPrivate worker asked mtime =>
    match s.privateFile with
    | none => some (s, .raised)
    | some (key, _) => some (s, .readingPublic worker asked mtime key)
  | .readingPublic worker asked mtime key =>
    match s.publicFile with
    | none => some (s, .raised)
    | some pem => some (s, .readingRetired worker asked mtime key pem)
  | .readingRetired worker asked mtime key pem =>
    let loaded := ⟨key, pem, ringOf scheme pem s.retired, mtime⟩
    some (use scheme settings (reload s worker loaded) worker loaded answer.now asked)
  | .rotate cleanup => some (s, .loaded cleanup s.publicFile)
  -- the old key is set aside, and until the new one is in its place there is none
  | .loaded cleanup old => some ({ s with privateFile := none }, .moved cleanup old)
  | .moved cleanup old => some ({ s with drawn := s.drawn ++ [answer.key] }, .written cleanup old answer.key answer.now)
  | .written cleanup old key mtime => some ({ s with privateFile := some (key, mtime) }, .replaced cleanup old key)
  | .replaced cleanup old key => some ({ s with publicFile := some (scheme.publicOf key) }, .published cleanup old)
  | .published cleanup none => some (s, .preserved cleanup)
  | .published cleanup (some pem) => some (preserve scheme s pem answer.now, .preserved cleanup)
  | .preserved cleanup => some (if cleanup then cleanupRetiredKeys settings s answer.now else s, .rotated)
  | .created | .decoded _ _ | .raised | .rotated => none

def tick (s : Vault κ π) (now : Instant) : Vault κ π := { s with latest := max s.latest now }

def advance : Advance (Vault κ π) (Call κ π) (Answer κ) := fun _ s p answer =>
  turn scheme settings (tick s answer.now) answer p

def serving : Call κ π → Bool
  | .ensuring _ _ _ | .statting _ _ _ | .readingPrivate _ _ _ | .readingPublic _ _ _ _ | .readingRetired _ _ _ _ _ => true
  | _ => false

/-- The rotation has begun and has not yet preserved the old key. -/
def rotating : Call κ π → Bool
  | .loaded _ _ | .moved _ _ | .written _ _ _ _ | .replaced _ _ _ | .published _ _ => true
  | _ => false

def clashes (p r : Call κ π) : Bool := rotating p && (rotating r || serving r) || serving p && rotating r

def draws : Call κ π → Bool
  | .moved _ _ => true
  | _ => false

/-- A key is drawn with an id and at a time of its own. -/
def Drawn (s : Vault κ π) (answer : Answer κ) (p : Option (Call κ π)) : Prop :=
  p.any draws = true → s.latest < answer.now ∧
    ∀ key ∈ s.drawn, scheme.keyId (scheme.publicOf key) ≠ scheme.keyId (scheme.publicOf answer.key)

instance (s : Vault κ π) (answer : Answer κ) (p : Option (Call κ π)) : Decidable (Drawn scheme s answer p) :=
  inferInstanceAs (Decidable (_ → _ ∧ _))

/-- Clocks do not go back, a token lives no longer than a retired key, and nothing clashes with
a rotation: neither a call that reads the key files nor another rotation. -/
def Careful (s : System (Vault κ π) (Call κ π)) (e : Event (Request κ) (Answer κ)) : Prop :=
  s.calls.Pairwise (fun p r => clashes p r = false) ∧
    match e with
    | .call (.createAccessToken _ expiresDelta) => settings.lifetime expiresDelta ≤ settings.grace
    | .call _ => True
    | .turn i answer => s.shared.latest ≤ answer.now ∧ Drawn scheme s.shared answer s.calls[i]?

instance (s : System (Vault κ π) (Call κ π)) (e : Event (Request κ) (Answer κ)) : Decidable (Careful scheme settings s e) :=
  match e with
  | .call (.createAccessToken _ expiresDelta) =>
    inferInstanceAs (Decidable (_ ∧ settings.lifetime expiresDelta ≤ settings.grace))
  | .call (.decodeAccessToken _ _) => inferInstanceAs (Decidable (_ ∧ True))
  | .call (.rotate _) => inferInstanceAs (Decidable (_ ∧ True))
  | .turn i answer =>
    inferInstanceAs (Decidable (_ ∧ s.shared.latest ≤ answer.now ∧ Drawn scheme s.shared answer s.calls[i]?))

end

section

variable {κ π : Type} (scheme : Scheme κ π) (settings : KeySettings)

def Matched (s : Vault κ π) : Prop :=
  ∃ key ∈ s.drawn, ∃ mtime, s.privateFile = some (key, mtime) ∧ s.publicFile = some (scheme.publicOf key)

/-- A manager that has read the key that is active now, and knows it and the key of every token that has time left. -/
structure Current (s : Vault κ π) (key : κ) (loaded : Loaded κ π) : Prop where
  privateKey : loaded.activePrivateKey = key
  publicPem : loaded.activePublicPem = scheme.publicOf key
  active : loaded.keyRing.get (scheme.keyId (scheme.publicOf key)) = some (scheme.publicOf key)
  known : ∀ token ∈ s.issued, s.latest < token.exp → loaded.keyRing.get token.kid = some (scheme.publicOf token.key)

structure Kept (s : Vault κ π) : Prop where
  ids : ∀ key ∈ s.drawn, ∀ other ∈ s.drawn,
    scheme.keyId (scheme.publicOf key) = scheme.keyId (scheme.publicOf other) → scheme.publicOf key = scheme.publicOf other
  publicFile : ∀ pem ∈ s.publicFile, ∃ key ∈ s.drawn, scheme.publicOf key = pem
  retired : ∀ file ∈ s.retired, ∃ key ∈ s.drawn, scheme.publicOf key = file.pem
  issued : ∀ token ∈ s.issued, token.key ∈ s.drawn ∧ token.kid = scheme.keyId (scheme.publicOf token.key) ∧
    token.iat ≤ s.latest ∧ token.exp ≤ s.latest + settings.grace
  privateFile : ∀ key mtime, s.privateFile = some (key, mtime) → mtime ≤ s.latest
  managers : ∀ worker loaded, s.managers worker = some loaded →
    loaded.lastMtime ≤ s.latest ∧ ∀ key, s.privateFile = some (key, loaded.lastMtime) → Current scheme s key loaded

/-- The token's time is over, or its key is active, or is retired for as long as the token may last. -/
def Known (s : Vault κ π) (token : Token κ) : Prop :=
  token.exp ≤ s.latest ∨ s.publicFile = some (scheme.publicOf token.key) ∨
    ∃ file ∈ s.retired, file.pem = scheme.publicOf token.key ∧ token.exp ≤ file.mtime + settings.grace

def UseLocal (s : Vault κ π) : Use κ → Prop
  | .keyId iat exp => iat ≤ s.latest ∧ exp ≤ s.latest + settings.grace
  | .privateKey kid iat exp =>
    iat ≤ s.latest ∧ exp ≤ s.latest + settings.grace ∧
      ∀ key mtime, s.privateFile = some (key, mtime) → kid = scheme.keyId (scheme.publicOf key)
  | .publicKeyFor _ => True

def Local (s : Vault κ π) : Call κ π → Prop
  | .create _ expiresDelta => settings.lifetime expiresDelta ≤ settings.grace
  | .ensuring _ asked _ | .statting _ asked _ => UseLocal scheme settings s asked
  | .readingPrivate _ asked mtime => UseLocal scheme settings s asked ∧ ∃ key, s.privateFile = some (key, mtime)
  | .readingPublic _ asked mtime key => UseLocal scheme settings s asked ∧ s.privateFile = some (key, mtime)
  | .readingRetired _ asked mtime key pem =>
    UseLocal scheme settings s asked ∧ s.privateFile = some (key, mtime) ∧ s.publicFile = some pem
  | .loaded _ old | .moved _ old => s.publicFile = old
  | .written _ old key mtime =>
    s.publicFile = old ∧ key ∈ s.drawn ∧ mtime ≤ s.latest ∧
      ∀ worker loaded, s.managers worker = some loaded → loaded.lastMtime < mtime
  | .replaced _ old key => s.publicFile = old ∧ key ∈ s.drawn ∧ ∃ mtime, s.privateFile = some (key, mtime)
  | .published _ old => Matched scheme s ∧ ∀ pem ∈ old, ∃ key ∈ s.drawn, scheme.publicOf key = pem
  | _ => True

structure Good (s : System (Vault κ π) (Call κ π)) : Prop where
  kept : Kept scheme settings s.shared
  locals : ∀ (i : Nat) (p : Call κ π), s.calls[i]? = some p → Local scheme settings s.shared p
  matched : (∀ p ∈ s.calls, rotating p = false) → Matched scheme s.shared
  known : ∀ token ∈ s.shared.issued, Known scheme settings s.shared token ∨
    ∃ cleanup, Call.published cleanup (some (scheme.publicOf token.key)) ∈ s.calls

variable {scheme settings} {s u : Vault κ π} {p q r : Call κ π} {calls : List (Call κ π)} {i : Nat} {worker : Nat}
  {loaded : Loaded κ π} {key : κ}

structure SameFiles (s u : Vault κ π) : Prop where
  privateFile : u.privateFile = s.privateFile
  publicFile : u.publicFile = s.publicFile
  drawn : u.drawn = s.drawn
  latest : s.latest ≤ u.latest

theorem SameFiles.matched (h : SameFiles s u) (hs : Matched scheme s) : Matched scheme u := by
  rwa [Matched, h.privateFile, h.publicFile, h.drawn]

theorem UseLocal.mono (h : SameFiles s u) {asked : Use κ} (hs : UseLocal scheme settings s asked) :
    UseLocal scheme settings u asked := by
  have hgrace : s.latest + settings.grace ≤ u.latest + settings.grace := Int.add_le_add_right h.latest _
  cases asked with
  | keyId iat exp => exact ⟨hs.1.trans h.latest, hs.2.trans hgrace⟩
  | privateKey kid iat exp =>
      refine ⟨hs.1.trans h.latest, hs.2.1.trans hgrace, ?_⟩
      rw [h.privateFile]
      exact hs.2.2
  | publicKeyFor token => trivial

/-- A turn of a call that changes no active file takes nothing from another, and where that one is a rotation, it has
to leave the managers alone. -/
theorem Local.mono (h : SameFiles s u) (hmanagers : rotating r = true → u.managers = s.managers)
    (hs : Local scheme settings s r) : Local scheme settings u r := by
  cases r with
  | ensuring worker asked again | statting worker asked again => exact UseLocal.mono h hs
  | readingPrivate worker asked mtime => exact ⟨hs.1.mono h, h.privateFile ▸ hs.2⟩
  | readingPublic worker asked mtime key => exact ⟨hs.1.mono h, h.privateFile ▸ hs.2⟩
  | readingRetired worker asked mtime key pem => exact ⟨hs.1.mono h, h.privateFile ▸ hs.2.1, h.publicFile ▸ hs.2.2⟩
  | loaded cleanup old => exact h.publicFile.trans hs
  | moved cleanup old => exact h.publicFile.trans hs
  | written cleanup old key mtime =>
      refine ⟨h.publicFile.trans hs.1, h.drawn ▸ hs.2.1, hs.2.2.1.trans h.latest, ?_⟩
      rw [hmanagers rfl]
      exact hs.2.2.2
  | replaced cleanup old key => exact ⟨h.publicFile.trans hs.1, h.drawn ▸ hs.2.1, h.privateFile ▸ hs.2.2⟩
  | published cleanup old => exact ⟨h.matched hs.1, h.drawn ▸ hs.2⟩
  | create worker expiresDelta => exact hs
  | decode | rotate | preserved | created | decoded | raised | rotated => trivial

theorem local_of_idle (hs : serving r = false) (hr : rotating r = false) (h : Local scheme settings s r) :
    Local scheme settings u r := by
  cases r with
  | create worker expiresDelta => exact h
  | decode | rotate | preserved | created | decoded | raised | rotated => trivial
  | ensuring | statting | readingPrivate | readingPublic | readingRetired => cases hs
  | loaded | moved | written | replaced | published => cases hr

theorem mem_set_of_ne (hp : calls[i]? = some p) (hr : r ∈ calls) (hne : r ≠ p) (q : Call κ π) : r ∈ calls.set i q := by
  obtain ⟨before, after, hcalls, hset⟩ := exists_split hp
  rw [hcalls] at hr
  rw [hset]
  simp only [List.mem_append, List.mem_cons] at hr ⊢
  rcases hr with hbefore | rfl | hafter
  · exact .inl hbefore
  · exact absurd rfl hne
  · exact .inr (.inr hafter)

theorem mem_set_self (hp : calls[i]? = some p) (q : Call κ π) : q ∈ calls.set i q :=
  List.mem_set (List.getElem?_eq_some_iff.mp hp).1 q

theorem clashes_comm (p r : Call κ π) : clashes p r = clashes r p := by
  cases hp : rotating p <;> cases hr : rotating r <;> simp [clashes, hp, hr]

theorem apart_of_ne (h : calls.Pairwise fun p r => clashes p r = false) {j : Nat} (hij : j ≠ i) (hp : calls[i]? = some p)
    (hr : calls[j]? = some r) : clashes p r = false := by
  obtain ⟨hi, rfl⟩ := List.getElem?_eq_some_iff.mp hp
  obtain ⟨hj, rfl⟩ := List.getElem?_eq_some_iff.mp hr
  rcases Nat.lt_or_gt_of_ne hij with hlt | hlt
  · rw [clashes_comm]
    exact List.pairwise_iff_getElem.mp h j i hj hi hlt
  · exact List.pairwise_iff_getElem.mp h i j hi hj hlt

theorem Good.turn (h : Good scheme settings ⟨s, calls⟩) (hapart : calls.Pairwise fun p r => clashes p r = false)
    (hp : calls[i]? = some p) (hkept : Kept scheme settings u) (hown : Local scheme settings u q)
    (hother : ∀ r, clashes p r = false → Local scheme settings s r → Local scheme settings u r)
    (hmatched : rotating q = false →
      (∀ (j : Nat) (r : Call κ π), j ≠ i → calls[j]? = some r → rotating r = false) → Matched scheme u)
    (hknown : ∀ token ∈ u.issued, Known scheme settings u token ∨
      ∃ cleanup, Call.published cleanup (some (scheme.publicOf token.key)) ∈ calls.set i q) :
    Good scheme settings ⟨u, calls.set i q⟩ := by
  refine ⟨hkept, fun j r hr => ?_, fun hnone => ?_, hknown⟩
  · by_cases hji : j = i
    · subst hji
      rw [List.getElem?_set_self'] at hr
      obtain ⟨-, -, rfl⟩ := Option.map_eq_some_iff.mp hr
      exact hown
    · rw [List.getElem?_set_ne (Ne.symm hji)] at hr
      exact hother r (apart_of_ne hapart hji hp hr) (h.locals j r hr)
  · refine hmatched (hnone q (mem_set_self hp q)) fun j r hji hr => hnone r ?_
    rw [← List.getElem?_set_ne (Ne.symm hji) (a := q)] at hr
    exact List.mem_of_getElem? hr

theorem none_rotating (hapart : calls.Pairwise fun p r => clashes p r = false) (hp : calls[i]? = some p)
    (hserving : serving p = true) : ∀ r ∈ calls, rotating r = false := by
  intro r hr
  obtain ⟨j, hj⟩ := List.mem_iff_getElem?.mp hr
  by_cases hji : j = i
  · subst hji
    obtain rfl := Option.some.inj (hp.symm.trans hj)
    cases p <;> first | rfl | cases hserving
  · have hclash := apart_of_ne hapart hji hp hj
    rw [clashes, hserving, Bool.true_and, Bool.or_eq_false_iff] at hclash
    exact hclash.2

theorem Good.fileless (h : Good scheme settings ⟨s, calls⟩) (hapart : calls.Pairwise fun p r => clashes p r = false)
    (hp : calls[i]? = some p) (hstill : rotating p = false) (hfiles : SameFiles s u)
    (hmanagers : serving p = false → u.managers = s.managers) (hkept : Kept scheme settings u)
    (hown : Local scheme settings u q)
    (hknown : ∀ token ∈ u.issued,
      token ∈ s.issued ∧ (Known scheme settings s token → Known scheme settings u token) ∨ Known scheme settings u token) :
    Good scheme settings ⟨u, calls.set i q⟩ := by
  refine h.turn hapart hp hkept hown (fun r hclash hr => ?_) (fun _ hothers => ?_) fun token htoken => ?_
  · refine hr.mono hfiles fun hrotating => hmanagers ?_
    rw [clashes, hstill, hrotating, Bool.false_and, Bool.false_or, Bool.and_true] at hclash
    exact hclash
  · refine hfiles.matched (h.matched fun r hr => ?_)
    obtain ⟨j, hj⟩ := List.mem_iff_getElem?.mp hr
    by_cases hji : j = i
    · subst hji
      obtain rfl := Option.some.inj (hp.symm.trans hj)
      exact hstill
    · exact hothers j r hji hj
  · rcases hknown token htoken with ⟨hbefore, hkeeps⟩ | hnow
    · rcases h.known token hbefore with hold | ⟨cleanup, hmem⟩
      · exact .inl (hkeeps hold)
      · refine .inr ⟨cleanup, mem_set_of_ne hp hmem ?_ q⟩
        rintro rfl
        cases hstill
    · exact .inl hnow

theorem Good.rotation (h : Good scheme settings ⟨s, calls⟩) (hapart : calls.Pairwise fun p r => clashes p r = false)
    (hp : calls[i]? = some p) (hrotating : rotating p = true) (hkept : Kept scheme settings u)
    (hown : Local scheme settings u q) (hmatched : rotating q = false → Matched scheme u)
    (hknown : ∀ token ∈ u.issued, Known scheme settings u token ∨
      ∃ cleanup, Call.published cleanup (some (scheme.publicOf token.key)) ∈ calls.set i q) :
    Good scheme settings ⟨u, calls.set i q⟩ := by
  refine h.turn hapart hp hkept hown (fun r hclash hr => ?_) (fun hq _ => hmatched hq) hknown
  rw [clashes, hrotating, Bool.true_and, Bool.or_eq_false_iff, Bool.or_eq_false_iff] at hclash
  exact local_of_idle hclash.1.2 hclash.1.1 hr

theorem Current.mono (h : Current scheme s key loaded) (hissued : u.issued = s.issued) (hlatest : s.latest ≤ u.latest) :
    Current scheme u key loaded :=
  ⟨h.privateKey, h.publicPem, h.active, fun token htoken hexp => h.known token (hissued ▸ htoken) (hlatest.trans_lt hexp)⟩

theorem Kept.carried (h : Kept scheme settings s) (hmanagers : u.managers = s.managers) (hissued : u.issued = s.issued)
    (hlatest : s.latest ≤ u.latest)
    (hprivate : ∀ key mtime, u.privateFile = some (key, mtime) → s.privateFile = some (key, mtime)) :
    ∀ worker loaded, u.managers worker = some loaded →
      loaded.lastMtime ≤ u.latest ∧ ∀ key, u.privateFile = some (key, loaded.lastMtime) → Current scheme u key loaded := by
  intro worker loaded hloaded
  rw [hmanagers] at hloaded
  obtain ⟨hmtime, hcurrent⟩ := h.managers worker loaded hloaded
  exact ⟨hmtime.trans hlatest, fun key hkey => (hcurrent key (hprivate key _ hkey)).mono hissued hlatest⟩

theorem Kept.quiet (h : Kept scheme settings s) (hfiles : SameFiles s u) (hretired : ∀ file ∈ u.retired, file ∈ s.retired)
    (hmanagers : u.managers = s.managers) (hissued : u.issued = s.issued) : Kept scheme settings u where
  ids := hfiles.drawn ▸ h.ids
  publicFile := by
    rw [hfiles.publicFile, hfiles.drawn]
    exact h.publicFile
  retired file hfile := by
    rw [hfiles.drawn]
    exact h.retired file (hretired file hfile)
  issued token htoken := by
    rw [hissued] at htoken
    obtain ⟨hkey, hkid, hiat, hexp⟩ := h.issued token htoken
    exact ⟨hfiles.drawn ▸ hkey, hkid, hiat.trans hfiles.latest, hexp.trans (Int.add_le_add_right hfiles.latest _)⟩
  privateFile key mtime hprivate := (h.privateFile key mtime (hfiles.privateFile ▸ hprivate)).trans hfiles.latest
  managers := h.carried hmanagers hissued hfiles.latest fun key mtime hprivate => hfiles.privateFile ▸ hprivate

theorem Known.mono (h : SameFiles s u) (hretired : u.retired = s.retired) {token : Token κ}
    (hs : Known scheme settings s token) : Known scheme settings u token := by
  rcases hs with hexp | hactive | hfile
  · exact .inl (hexp.trans h.latest)
  · exact .inr (.inl (h.publicFile.trans hactive))
  · exact .inr (.inr (hretired ▸ hfile))

theorem ringOf_get {pem own : π} {retired : List (RetiredFile π)}
    (hids : ∀ file ∈ retired, scheme.keyId file.pem = scheme.keyId own → file.pem = own)
    (hmem : own = pem ∨ ∃ file ∈ retired, file.pem = own) :
    (ringOf scheme pem retired).get (scheme.keyId own) = some own := by
  by_cases hretired : ∃ file ∈ retired, file.pem = own
  · obtain ⟨file, hfile, rfl⟩ := hretired
    refine Dict.get_putAll_of_agree (List.mem_map_of_mem hfile) fun entry hentry hkey => ?_
    obtain ⟨other, hother, rfl⟩ := List.mem_map.mp hentry
    exact hids other hother hkey
  · obtain rfl := hmem.resolve_right hretired
    have hnone : ∀ entry ∈ retired.map fun file => (scheme.keyId file.pem, file.pem), entry.1 ≠ scheme.keyId own := by
      intro entry hentry hkey
      obtain ⟨other, hother, rfl⟩ := List.mem_map.mp hentry
      exact hretired ⟨other, hother, hids other hother hkey⟩
    exact (Dict.get_putAll_of_not_mem hnone).trans ((Dict.get_put _ _ _ _).trans (if_pos rfl))

theorem sameFiles_tick (s : Vault κ π) (now : Instant) : SameFiles s (tick s now) := ⟨rfl, rfl, rfl, le_max_left _ _⟩

theorem Good.tick (h : Good scheme settings ⟨s, calls⟩) (now : Instant) : Good scheme settings ⟨tick s now, calls⟩ where
  kept := h.kept.quiet (sameFiles_tick s now) (fun _ hfile => hfile) rfl rfl
  locals j r hr := (h.locals j r hr).mono (sameFiles_tick s now) fun _ => rfl
  matched hnone := (sameFiles_tick s now).matched (h.matched hnone)
  known token htoken := (h.known token htoken).imp_left (Known.mono (sameFiles_tick s now) rfl)

theorem Good.onwards (h : Good scheme settings ⟨s, calls⟩) (hapart : calls.Pairwise fun p r => clashes p r = false)
    (hp : calls[i]? = some p) (hstill : rotating p = false) (hown : Local scheme settings s q) :
    Good scheme settings ⟨s, calls.set i q⟩ :=
  h.fileless hapart hp hstill ⟨rfl, rfl, rfl, le_rfl⟩ (fun _ => rfl) h.kept hown fun _ htoken => .inl ⟨htoken, id⟩

theorem ringOf_drawn (hkept : Kept scheme settings s) {pem : π} (hkey : key ∈ s.drawn)
    (hmem : scheme.publicOf key = pem ∨ ∃ file ∈ s.retired, file.pem = scheme.publicOf key) :
    (ringOf scheme pem s.retired).get (scheme.keyId (scheme.publicOf key)) = some (scheme.publicOf key) := by
  refine ringOf_get (fun file hfile hid => ?_) hmem
  obtain ⟨other, hother, hpem⟩ := hkept.retired file hfile
  rw [← hpem] at hid ⊢
  exact hkept.ids other hother key hkey hid

theorem current_of_read (h : Good scheme settings ⟨s, calls⟩) (hnone : ∀ r ∈ calls, rotating r = false) (hkey : key ∈ s.drawn)
    (hpublic : s.publicFile = some (scheme.publicOf key)) (mtime : Instant) :
    Current scheme s key ⟨key, scheme.publicOf key, ringOf scheme (scheme.publicOf key) s.retired, mtime⟩ := by
  refine ⟨rfl, rfl, ringOf_drawn h.kept hkey (.inl rfl), fun token htoken hexp => ?_⟩
  obtain ⟨hdrawn, hkid, -, -⟩ := h.kept.issued token htoken
  rw [hkid]
  refine ringOf_drawn h.kept hdrawn ?_
  rcases h.known token htoken with (hover | hactive | ⟨file, hfile, hpem, -⟩) | ⟨cleanup, hmem⟩
  · exact absurd hexp (not_lt.mpr hover)
  · exact .inl (Option.some.inj (hactive.symm.trans hpublic))
  · exact .inr ⟨file, hfile, hpem⟩
  · cases hnone _ hmem

theorem Kept.reload (h : Kept scheme settings s) (hcurrent : Current scheme s key loaded)
    (hprivate : s.privateFile = some (key, loaded.lastMtime)) (worker : Nat) :
    Kept scheme settings (reload s worker loaded) := by
  refine ⟨h.ids, h.publicFile, h.retired, h.issued, h.privateFile, fun other manager hmanager => ?_⟩
  by_cases hother : other = worker
  · subst hother
    have hself : Function.update s.managers other (some loaded) other = some manager := hmanager
    rw [Function.update_self] at hself
    cases hself
    refine ⟨h.privateFile key _ hprivate, fun own hown => ?_⟩
    cases hprivate.symm.trans hown
    exact hcurrent.mono rfl le_rfl
  · have hmanager' : Function.update s.managers worker (some loaded) other = some manager := hmanager
    rw [Function.update_of_ne hother] at hmanager'
    obtain ⟨hmtime, hfit⟩ := h.managers other manager hmanager'
    exact ⟨hmtime, fun own hown => (hfit own hown).mono rfl le_rfl⟩

theorem Kept.unlink (h : Kept scheme settings s) : Kept scheme settings { s with privateFile := none } where
  ids := h.ids
  publicFile := h.publicFile
  retired := h.retired
  issued := h.issued
  privateFile _ _ hprivate := by cases hprivate
  managers := h.carried rfl rfl le_rfl fun _ _ hprivate => by cases hprivate

theorem Kept.draw (h : Kept scheme settings s) {own : κ}
    (hown : ∀ key ∈ s.drawn, scheme.keyId (scheme.publicOf key) ≠ scheme.keyId (scheme.publicOf own)) :
    Kept scheme settings { s with drawn := s.drawn ++ [own] } where
  ids key hkey other hother hid := by
    rcases List.mem_append.mp hkey with hold | hnew
    · rcases List.mem_append.mp hother with hold' | hnew'
      · exact h.ids key hold other hold' hid
      · obtain rfl := List.mem_singleton.mp hnew'
        exact absurd hid (hown key hold)
    · obtain rfl := List.mem_singleton.mp hnew
      rcases List.mem_append.mp hother with hold' | hnew'
      · exact absurd hid.symm (hown other hold')
      · rw [List.mem_singleton.mp hnew']
  publicFile pem hpem := by
    obtain ⟨key, hkey, hpem⟩ := h.publicFile pem hpem
    exact ⟨key, List.mem_append_left _ hkey, hpem⟩
  retired file hfile := by
    obtain ⟨key, hkey, hpem⟩ := h.retired file hfile
    exact ⟨key, List.mem_append_left _ hkey, hpem⟩
  issued token htoken := by
    obtain ⟨hkey, hrest⟩ := h.issued token htoken
    exact ⟨List.mem_append_left _ hkey, hrest⟩
  privateFile := h.privateFile
  managers := h.carried rfl rfl le_rfl fun _ _ hprivate => hprivate

theorem Kept.replacePrivate (h : Kept scheme settings s) (key : κ) {mtime : Instant} (hmtime : mtime ≤ s.latest)
    (hlater : ∀ worker loaded, s.managers worker = some loaded → loaded.lastMtime < mtime) :
    Kept scheme settings { s with privateFile := some (key, mtime) } where
  ids := h.ids
  publicFile := h.publicFile
  retired := h.retired
  issued := h.issued
  privateFile other m hother := by
    cases hother
    exact hmtime
  managers worker loaded hloaded := by
    refine ⟨(h.managers worker loaded hloaded).1, fun other hother => ?_⟩
    have hold := hlater worker loaded hloaded
    cases hother
    exact absurd hold (lt_irrefl _)

theorem Kept.replacePublic (h : Kept scheme settings s) (hkey : key ∈ s.drawn) :
    Kept scheme settings { s with publicFile := some (scheme.publicOf key) } where
  ids := h.ids
  publicFile pem hpem := by
    cases hpem
    exact ⟨key, hkey, rfl⟩
  retired := h.retired
  issued := h.issued
  privateFile := h.privateFile
  managers := h.carried rfl rfl le_rfl fun _ _ hprivate => hprivate

theorem Kept.preserved (h : Kept scheme settings s) (hkey : key ∈ s.drawn) (now : Instant) :
    Kept scheme settings (preserve scheme s (scheme.publicOf key) now) where
  ids := h.ids
  publicFile := h.publicFile
  retired file hfile := by
    rcases List.mem_append.mp hfile with hbefore | hnew
    · exact h.retired file (List.mem_of_mem_filter hbefore)
    · obtain rfl := List.mem_singleton.mp hnew
      exact ⟨key, hkey, rfl⟩
  issued := h.issued
  privateFile := h.privateFile
  managers := h.carried rfl rfl le_rfl fun _ _ hprivate => hprivate

/-- A key that is preserved is known for as long as any of its tokens, and no other key's file is written over. -/
theorem Known.preserved (hkept : Kept scheme settings s) (hkey : key ∈ s.drawn) {token : Token κ} (htoken : token ∈ s.issued)
    (h : Known scheme settings s token ∨ scheme.publicOf token.key = scheme.publicOf key) :
    Known scheme settings (preserve scheme s (scheme.publicOf key) s.latest) token := by
  by_cases hsame : scheme.publicOf token.key = scheme.publicOf key
  · have hnew : (⟨scheme.publicOf key, s.latest⟩ : RetiredFile π) ∈
        (preserve scheme s (scheme.publicOf key) s.latest).retired :=
      List.mem_append_right _ (List.mem_singleton_self _)
    exact .inr (.inr ⟨_, hnew, hsame.symm, (hkept.issued token htoken).2.2.2⟩)
  · rcases h.resolve_right hsame with hover | hactive | ⟨file, hfile, hpem, hexp⟩
    · exact .inl hover
    · exact .inr (.inl hactive)
    · -- a file of another key has another name
      have hid : scheme.keyId file.pem ≠ scheme.keyId (scheme.publicOf key) := by
        rw [hpem]
        exact fun hid => hsame (hkept.ids token.key (hkept.issued token htoken).1 key hkey hid)
      have hstays : file ∈ s.retired.filter fun file => scheme.keyId file.pem ≠ scheme.keyId (scheme.publicOf key) :=
        List.mem_filter.mpr ⟨hfile, decide_eq_true hid⟩
      exact .inr (.inr ⟨file, List.mem_append_left _ hstays, hpem, hexp⟩)

/-- What a call that reads the keys may come to: no error, and no refusal of a token that was issued and has time left. -/
def Seamless (_ : Nat) (s : Vault κ π) (_ : Call κ π) (u : Vault κ π) (q : Call κ π) : Prop :=
  q ≠ .raised ∧ ∀ token verdict, q = .decoded token verdict → token ∈ s.issued → u.latest < token.exp → verdict = .accepted

structure Used (scheme : Scheme κ π) (settings : KeySettings) (s u : Vault κ π) (q : Call κ π) : Prop where
  files : SameFiles s u
  retired : u.retired = s.retired
  kept : Kept scheme settings u
  own : Local scheme settings u q
  known : ∀ token ∈ u.issued, token ∈ s.issued ∨ Known scheme settings u token
  raised : q ≠ .raised
  accepted : ∀ token verdict, q = .decoded token verdict → token ∈ s.issued → u.latest < token.exp → verdict = .accepted

theorem Good.used (h : Good scheme settings ⟨s, calls⟩) (hapart : calls.Pairwise fun p r => clashes p r = false)
    (hp : calls[i]? = some p) (hstill : rotating p = false) (hserving : serving p = true) {v : Vault κ π}
    (hfiles : SameFiles s v) (hretired : v.retired = s.retired) (hissued : v.issued = s.issued)
    (hused : Used scheme settings v u q) :
    Good scheme settings ⟨u, calls.set i q⟩ ∧ Seamless i s p u q := by
  have hboth : SameFiles s u := ⟨hused.files.privateFile.trans hfiles.privateFile,
    hused.files.publicFile.trans hfiles.publicFile, hused.files.drawn.trans hfiles.drawn,
    hfiles.latest.trans hused.files.latest⟩
  refine ⟨h.fileless hapart hp hstill hboth (fun hno => ?_) hused.kept hused.own fun token htoken => ?_, hused.raised,
    hissued ▸ hused.accepted⟩
  · rw [hserving] at hno
    cases hno
  · rcases hused.known token htoken with hold | hnow
    · exact .inl ⟨hissued ▸ hold, Known.mono hboth (hused.retired.trans hretired)⟩
    · exact .inr hnow

def start (scheme : Scheme κ π) (key : κ) (now : Instant) : System (Vault κ π) (Call κ π) :=
  ⟨⟨some (key, now), some (scheme.publicOf key), [], fun _ => none, [], [key], now⟩, []⟩

theorem good_start (key : κ) (now : Instant) : Good scheme settings (start scheme key now) where
  kept := by
    refine ⟨fun own hown other hother _ => ?_, fun pem hpem => ?_, nofun, nofun, fun own mtime hown => ?_, nofun⟩
    · rw [List.mem_singleton.mp hown, List.mem_singleton.mp hother]
    · cases hpem
      exact ⟨key, List.mem_singleton_self _, rfl⟩
    · cases hown
      exact le_refl now
  locals _ _ hp := nomatch hp
  matched _ := ⟨key, List.mem_singleton_self _, now, rfl, rfl⟩
  known := nofun

end

section

variable {κ π : Type} [DecidableEq π] {scheme : Scheme κ π} {settings : KeySettings} {s u : Vault κ π} {p q : Call κ π}
  {calls : List (Call κ π)} {i worker : Nat} {loaded : Loaded κ π} {key : κ} {answer : Answer κ} {now : Instant}

theorem decode_accepted (hkept : Kept scheme settings s) (hcurrent : Current scheme s key loaded) {token : Token κ}
    (htoken : token ∈ s.issued) (hexp : s.latest < token.exp) :
    decode scheme settings loaded.keyRing token s.latest = .accepted := by
  have hiat := (hkept.issued token htoken).2.2.1
  have hleeway := settings.leeway_nonneg
  have himmature : ¬ token.iat > s.latest + settings.leeway := not_lt.mpr (hiat.trans (le_add_of_nonneg_right hleeway))
  have hexpired : ¬ token.exp ≤ s.latest - settings.leeway := not_le.mpr ((sub_le_self _ hleeway).trans_lt hexp)
  simp only [decode, hcurrent.known token htoken hexp, ne_eq, not_true_eq_false, if_false, if_neg himmature, if_neg hexpired]

theorem use_used (worker : Nat) (hnow : s.latest = now) (hkept : Kept scheme settings s)
    (hcurrent : Current scheme s key loaded) (hkey : key ∈ s.drawn) {mtime : Instant}
    (hprivate : s.privateFile = some (key, mtime)) (hpublic : s.publicFile = some (scheme.publicOf key)) {asked : Use κ}
    (hasked : UseLocal scheme settings s asked) :
    Used scheme settings s (use scheme settings s worker loaded now asked).1
      (use scheme settings s worker loaded now asked).2 := by
  subst hnow
  have hsame : SameFiles s s := ⟨rfl, rfl, rfl, le_rfl⟩
  cases asked with
  | keyId iat exp =>
      refine ⟨hsame, rfl, hkept, ⟨hasked.1, hasked.2, fun other m hother => ?_⟩, fun token htoken => .inl htoken, nofun, nofun⟩
      cases hprivate.symm.trans hother
      rw [hcurrent.publicPem]
  | privateKey kid iat exp =>
      obtain ⟨hiat, hexp, hkid⟩ := hasked
      obtain rfl := hkid key mtime hprivate
      have hactive : loaded.activePrivateKey = key := hcurrent.privateKey
      refine ⟨⟨rfl, rfl, rfl, le_rfl⟩, rfl, ?_, trivial, fun token htoken => ?_, nofun, nofun⟩
      · refine ⟨hkept.ids, hkept.publicFile, hkept.retired, fun token htoken => ?_, hkept.privateFile,
          fun other manager hmanager => ?_⟩
        · rcases List.mem_append.mp htoken with hold | hnew
          · exact hkept.issued token hold
          · obtain rfl := List.mem_singleton.mp hnew
            exact ⟨hactive.symm ▸ hkey, hactive.symm ▸ rfl, hiat, hexp⟩
        · obtain ⟨hmtime, hfit⟩ := hkept.managers other manager hmanager
          refine ⟨hmtime, fun own hown => ?_⟩
          obtain ⟨hown', hpem, hring, hknown⟩ := hfit own hown
          refine ⟨hown', hpem, hring, fun token htoken hlater => ?_⟩
          rcases List.mem_append.mp htoken with hold | hnew
          · exact hknown token hold hlater
          · obtain rfl := List.mem_singleton.mp hnew
            cases hprivate.symm.trans hown
            exact hactive.symm ▸ hring
      · rcases List.mem_append.mp htoken with hold | hnew
        · exact .inl hold
        · obtain rfl := List.mem_singleton.mp hnew
          exact .inr (.inr (.inl (hactive.symm ▸ hpublic)))
  | publicKeyFor token =>
      refine ⟨hsame, rfl, hkept, trivial, fun token htoken => .inl htoken, nofun, fun other verdict hdecoded htoken hexp => ?_⟩
      cases hdecoded
      exact decode_accepted hkept hcurrent htoken hexp

theorem wholeSeconds_le (t : Instant) : wholeSeconds t ≤ t := Int.ediv_mul_le t (by decide)

/-- A turn that changes no active file, of a call that is not reading them: one that begins, or a rotation that ends. -/
theorem good_idle (h : Good scheme settings ⟨s, calls⟩) (hapart : calls.Pairwise fun p r => clashes p r = false)
    (hp : calls[i]? = some p) (hnow : s.latest = answer.now) (hstill : rotating p = false) (hserving : serving p = false)
    (hq : turn scheme settings s answer p = some (u, q)) :
    Good scheme settings ⟨u, calls.set i q⟩ ∧ Seamless i s p u q := by
  have hlocal := h.locals i p hp
  cases p with
  | create worker expiresDelta =>
      cases hq
      refine ⟨h.onwards hapart hp rfl ⟨?_, ?_⟩, nofun, nofun⟩
      · exact (wholeSeconds_le _).trans hnow.ge
      · exact (wholeSeconds_le _).trans (add_le_add hnow.ge hlocal)
  | decode worker token =>
      cases hq
      exact ⟨h.onwards hapart hp rfl trivial, nofun, nofun⟩
  | rotate cleanup =>
      cases hq
      exact ⟨h.onwards hapart hp rfl rfl, nofun, nofun⟩
  | preserved cleanup =>
      cases cleanup with
      | false =>
          cases hq
          exact ⟨h.onwards hapart hp rfl trivial, nofun, nofun⟩
      | true =>
          cases hq
          have hfiles : SameFiles s (cleanupRetiredKeys settings s answer.now) := ⟨rfl, rfl, rfl, le_rfl⟩
          have hkept := h.kept.quiet hfiles (fun file hfile => List.mem_of_mem_filter hfile) rfl rfl
          refine ⟨h.fileless hapart hp rfl hfiles (fun _ => rfl) hkept trivial fun token htoken => .inl ⟨htoken, ?_⟩,
            nofun, nofun⟩
          rintro (hover | hactive | ⟨file, hfile, hpem, hexp⟩)
          · exact .inl hover
          · exact .inr (.inl hactive)
          · by_cases hold : file.mtime < answer.now - settings.grace
            · -- the token is no longer than the key that goes
              refine .inl ?_
              change token.exp ≤ s.latest
              rw [hnow]
              exact hexp.trans (lt_sub_iff_add_lt.mp hold).le
            · exact .inr (.inr ⟨file, List.mem_filter.mpr ⟨hfile, decide_eq_true hold⟩, hpem, hexp⟩)
  | created | decoded | raised | rotated => cases hq
  | ensuring | statting | readingPrivate | readingPublic | readingRetired => cases hserving
  | loaded | moved | written | replaced | published => cases hstill

theorem good_serving (h : Good scheme settings ⟨s, calls⟩) (hapart : calls.Pairwise fun p r => clashes p r = false)
    (hp : calls[i]? = some p) (hnow : s.latest = answer.now) (hserving : serving p = true)
    (hq : turn scheme settings s answer p = some (u, q)) :
    Good scheme settings ⟨u, calls.set i q⟩ ∧ Seamless i s p u q := by
  have hlocal := h.locals i p hp
  have hnone := none_rotating hapart hp hserving
  have hstill : rotating p = false := hnone p (List.mem_of_getElem? hp)
  have hkept : Kept scheme settings s := h.kept
  have hmatched : Matched scheme s := h.matched hnone
  obtain ⟨key, hkey, mtime, hprivate, hpublic⟩ := hmatched
  cases p with
  | ensuring worker asked again =>
      simp only [turn, hprivate, hpublic, Option.isSome_some, Bool.and_self, if_true] at hq
      cases hq
      exact ⟨h.onwards hapart hp rfl hlocal, nofun, nofun⟩
  | statting worker asked again =>
      simp only [turn, hprivate] at hq
      cases hmanager : s.managers worker with
      | none =>
          simp only [hmanager] at hq
          cases hq
          exact ⟨h.onwards hapart hp rfl ⟨hlocal, key, hprivate⟩, nofun, nofun⟩
      | some loaded =>
          simp only [hmanager] at hq
          by_cases hmtime : loaded.lastMtime = mtime
          · rw [if_pos hmtime] at hq
            subst hmtime
            have hcurrent := (hkept.managers worker loaded hmanager).2 key hprivate
            have hused := use_used worker hnow hkept hcurrent hkey hprivate hpublic hlocal
            rw [Option.some.inj hq] at hused
            exact h.used hapart hp rfl rfl ⟨rfl, rfl, rfl, le_rfl⟩ rfl rfl hused
          · rw [if_neg hmtime] at hq
            cases hq
            exact ⟨h.onwards hapart hp rfl ⟨hlocal, key, hprivate⟩, nofun, nofun⟩
  | readingPrivate worker asked read =>
      simp only [turn, hprivate] at hq
      cases hq
      obtain ⟨hasked, other, hother⟩ := hlocal
      cases hprivate.symm.trans hother
      exact ⟨h.onwards hapart hp rfl ⟨hasked, hprivate⟩, nofun, nofun⟩
  | readingPublic worker asked read own =>
      simp only [turn, hpublic] at hq
      cases hq
      exact ⟨h.onwards hapart hp rfl ⟨hlocal.1, hlocal.2, hpublic⟩, nofun, nofun⟩
  | readingRetired worker asked read own pem =>
      obtain ⟨hasked, hown, hpem⟩ := hlocal
      cases hprivate.symm.trans hown
      cases hpublic.symm.trans hpem
      obtain ⟨loaded, hloaded⟩ : ∃ loaded : Loaded κ π,
          loaded = ⟨key, scheme.publicOf key, ringOf scheme (scheme.publicOf key) s.retired, mtime⟩ := ⟨_, rfl⟩
      have hmtime : loaded.lastMtime = mtime := congrArg Loaded.lastMtime hloaded
      have hcurrent : Current scheme s key loaded := hloaded ▸ current_of_read h hnone hkey hpublic mtime
      have hfiles : SameFiles s (reload s worker loaded) := ⟨rfl, rfl, rfl, le_rfl⟩
      have hreloaded := hkept.reload hcurrent (hmtime ▸ hprivate) worker
      have hfit := (hreloaded.managers worker loaded (Function.update_self _ _ _)).2 key (hmtime ▸ hprivate)
      have hlatest : (reload s worker loaded).latest = answer.now := hnow
      have hused := use_used worker hlatest hreloaded hfit hkey hprivate hpublic (hasked.mono hfiles)
      simp only [turn, ← hloaded] at hq
      rw [Option.some.inj hq] at hused
      exact h.used hapart hp rfl rfl hfiles rfl rfl hused
  | create | decode | rotate | preserved | created | decoded | raised | rotated => cases hserving
  | loaded | moved | written | replaced | published => cases hserving

theorem good_rotating (h : Good scheme settings ⟨s, calls⟩) (hapart : calls.Pairwise fun p r => clashes p r = false)
    (hp : calls[i]? = some p) (hnow : s.latest = answer.now)
    (hfresh : ∀ cleanup old, p = .moved cleanup old →
      (∀ worker loaded, s.managers worker = some loaded → loaded.lastMtime < answer.now) ∧
        ∀ key ∈ s.drawn, scheme.keyId (scheme.publicOf key) ≠ scheme.keyId (scheme.publicOf answer.key))
    (hrotating : rotating p = true) (hq : turn scheme settings s answer p = some (u, q)) :
    Good scheme settings ⟨u, calls.set i q⟩ ∧ Seamless i s p u q := by
  have hlocal := h.locals i p hp
  have hkept : Kept scheme settings s := h.kept
  -- what was in flight before the turn still is, where the turn is not that of preserving it
  have hflight : ∀ q, (∀ cleanup pem, p ≠ .published cleanup (some pem)) → ∀ token ∈ s.issued,
      (Known scheme settings s token → Known scheme settings u token) →
        Known scheme settings u token ∨
          ∃ cleanup, Call.published cleanup (some (scheme.publicOf token.key)) ∈ calls.set i q := by
    intro q hne token htoken hkeeps
    rcases h.known token htoken with hold | ⟨cleanup, hmem⟩
    · exact .inl (hkeeps hold)
    · exact .inr ⟨cleanup, mem_set_of_ne hp hmem (hne cleanup _).symm q⟩
  cases p with
  | loaded cleanup old =>
      cases hq
      exact ⟨h.rotation hapart hp rfl hkept.unlink hlocal nofun fun token htoken =>
        hflight _ nofun token htoken id, nofun, nofun⟩
  | moved cleanup old =>
      cases hq
      obtain ⟨hlater, hother⟩ := hfresh cleanup old rfl
      have hown :
          Local scheme settings { s with drawn := s.drawn ++ [answer.key] } (.written cleanup old answer.key answer.now) :=
        ⟨hlocal, List.mem_append_right _ (List.mem_singleton_self _), hnow.ge, hlater⟩
      exact ⟨h.rotation hapart hp rfl (hkept.draw hother) hown nofun fun token htoken =>
        hflight _ nofun token htoken id, nofun, nofun⟩
  | written cleanup old key mtime =>
      cases hq
      obtain ⟨hpublic, hkey, hmtime, hlater⟩ := hlocal
      have hreplaced := hkept.replacePrivate key hmtime hlater
      exact ⟨h.rotation hapart hp rfl hreplaced ⟨hpublic, hkey, mtime, rfl⟩ nofun fun token htoken =>
        hflight _ nofun token htoken id, nofun, nofun⟩
  | replaced cleanup old key =>
      cases hq
      obtain ⟨hpublic, hkey, mtime, hprivate⟩ := hlocal
      have hown : Local scheme settings { s with publicFile := some (scheme.publicOf key) } (.published cleanup old) :=
        ⟨⟨key, hkey, mtime, hprivate, rfl⟩, fun pem hpem => hkept.publicFile pem (hpublic.trans hpem)⟩
      refine ⟨h.rotation hapart hp rfl (hkept.replacePublic hkey) hown nofun fun token htoken => ?_, nofun, nofun⟩
      rcases h.known token htoken with (hover | hactive | hfile) | ⟨cleanup', hmem⟩
      · exact .inl (.inl hover)
      · -- the key was active: it is now the one to be preserved
        have hold : old = some (scheme.publicOf token.key) := hpublic.symm.trans hactive
        exact .inr ⟨cleanup, hold ▸ mem_set_self hp _⟩
      · exact .inl (.inr (.inr hfile))
      · exact .inr ⟨cleanup', mem_set_of_ne hp hmem nofun _⟩
  | published cleanup old =>
      obtain ⟨hmatched, hold⟩ := hlocal
      cases old with
      | none =>
          cases hq
          exact ⟨h.rotation hapart hp rfl h.kept trivial (fun _ => hmatched) fun token htoken =>
            hflight _ nofun token htoken id, nofun, nofun⟩
      | some pem =>
          cases hq
          obtain ⟨own, hown, rfl⟩ := hold pem rfl
          have hpreserve : ∀ token ∈ s.issued, Known scheme settings s token ∨ scheme.publicOf token.key = scheme.publicOf own →
              Known scheme settings (preserve scheme s (scheme.publicOf own) answer.now) token :=
            fun token htoken hknown => hnow ▸ Known.preserved hkept hown htoken hknown
          refine ⟨h.rotation hapart hp rfl (hkept.preserved hown _) trivial (fun _ => hmatched) fun token htoken => ?_,
            nofun, nofun⟩
          rcases h.known token htoken with hold | ⟨cleanup', hmem⟩
          · exact .inl (hpreserve token htoken (.inl hold))
          · by_cases hsame : scheme.publicOf token.key = scheme.publicOf own
            · exact .inl (hpreserve token htoken (.inr hsame))
            · refine .inr ⟨cleanup', mem_set_of_ne hp hmem (fun heq => hsame ?_) _⟩
              exact Option.some.inj (Call.published.inj heq).2
  | create | decode | rotate | preserved | created | decoded | raised | rotated => cases hrotating
  | ensuring | statting | readingPrivate | readingPublic | readingRetired => cases hrotating

theorem good_advance (h : Good scheme settings ⟨s, calls⟩) (hcareful : Careful scheme settings ⟨s, calls⟩ (.turn i answer))
    (hp : calls[i]? = some p) (hq : advance scheme settings i s p answer = some (u, q)) :
    Good scheme settings ⟨u, calls.set i q⟩ ∧ Seamless i s p u q := by
  obtain ⟨hapart, hnow, hdrawn⟩ := hcareful
  have hkept : Kept scheme settings s := h.kept
  have hticked := h.tick answer.now
  have hlatest : (tick s answer.now).latest = answer.now := max_eq_right hnow
  cases hrotating : rotating p with
  | true =>
      have hfresh : ∀ cleanup old, p = .moved cleanup old →
          (∀ worker loaded, (tick s answer.now).managers worker = some loaded → loaded.lastMtime < answer.now) ∧
            ∀ key ∈ (tick s answer.now).drawn,
              scheme.keyId (scheme.publicOf key) ≠ scheme.keyId (scheme.publicOf answer.key) := by
        rintro cleanup old rfl
        rw [hp] at hdrawn
        obtain ⟨hlater, hother⟩ := hdrawn rfl
        exact ⟨fun worker loaded hloaded => (hkept.managers worker loaded hloaded).1.trans_lt hlater, hother⟩
      have hturn := good_rotating hticked hapart hp hlatest hfresh hrotating hq
      exact ⟨hturn.1, hturn.2⟩
  | false =>
      cases hserving : serving p with
      | true =>
          have hturn := good_serving hticked hapart hp hlatest hserving hq
          exact ⟨hturn.1, hturn.2⟩
      | false =>
          have hturn := good_idle hticked hapart hp hlatest hrotating hserving hq
          exact ⟨hturn.1, hturn.2⟩

theorem good_step {s t : System (Vault κ π) (Call κ π)} {e : Event (Request κ) (Answer κ)} (h : Good scheme settings s)
    (hcareful : Careful scheme settings s e) (ht : step begin (advance scheme settings) s e = some t) :
    Good scheme settings t := by
  cases e with
  | call request =>
      rw [step_call ht]
      have hidle : rotating (begin request : Call κ π) = false := by cases request <;> rfl
      refine ⟨h.kept, fun i p hp => ?_, fun hnone => h.matched fun r hr => hnone r (List.mem_append_left _ hr),
        fun token htoken => ?_⟩
      · rw [List.getElem?_append] at hp
        split at hp
        · exact h.locals i p hp
        · obtain rfl := List.mem_singleton.mp (List.mem_of_getElem? hp)
          cases request with
          | createAccessToken worker expiresDelta => exact hcareful.2
          | decodeAccessToken worker token => trivial
          | rotate cleanup => trivial
      · exact (h.known token htoken).imp_right fun ⟨cleanup, hmem⟩ => ⟨cleanup, List.mem_append_left _ hmem⟩
  | turn i answer =>
      obtain ⟨p, q, u, hp, hq, rfl⟩ := step_turn ht
      exact (good_advance h hcareful hp hq).1

/-- Where no call reads the keys while they are rotated, none fails for want of one, and every worker accepts what any has
issued until its time is over. -/
theorem rotation_seamless (scheme : Scheme κ π) (settings : KeySettings) (key : κ) (now : Instant)
    {events : List (Event (Request κ) (Answer κ))}
    (h : AllSteps (step begin (advance scheme settings)) (Careful scheme settings) (start scheme key now) events) :
    AllSteps (step begin (advance scheme settings)) (EveryTurn (advance scheme settings) Seamless) (start scheme key now)
      events := by
  have hgood := allStates_of_allSteps (fun _ _ _ hs hc ht => good_step hs hc ht) (good_start key now) h
  refine AllSteps.of_states (fun s e t hs hcareful ht => ?_) hgood h
  cases e with
  | call request => trivial
  | turn i answer => exact fun p u q hp hq => (good_advance hs hcareful hp hq).2

end

section Rotation

def twoKeys : Scheme Nat Nat := ⟨id, fun pem => if pem = 1 then "first" else "second"⟩

def quarterHour : KeySettings := ⟨15, 5 * second, none, by decide⟩

def rotationTurn (i : Nat) (now : Instant) : Event (Request Nat) (Answer Nat) := .turn i ⟨now, 2⟩

/-- A worker issues a token, the key is rotated, and another worker is given the token. -/
def rotatedOnce : List (Event (Request Nat) (Answer Nat)) :=
  [.call (.createAccessToken 0 none)] ++ (List.range 8).map (fun n => rotationTurn 0 n) ++
    [.call (.rotate true)] ++ (List.range 7).map (fun n => rotationTurn 1 (10 + n)) ++
    [.call (.decodeAccessToken 1 ⟨"first", 1, 0, 15 * minute⟩)] ++ (List.range 6).map (fun n => rotationTurn 2 (20 + n))

theorem rotation_seamless_once :
    (run (step begin (advance twoKeys quarterHour)) (start twoKeys 1 0) rotatedOnce).map
        (fun s => (s.shared.publicFile, s.calls)) =
      some (some 2, [.created, .rotated, .decoded ⟨"first", 1, 0, 15 * minute⟩ .accepted]) ∧
    AllSteps (step begin (advance twoKeys quarterHour)) (EveryTurn (advance twoKeys quarterHour) Seamless) (start twoKeys 1 0)
      rotatedOnce :=
  ⟨by decide +kernel, rotation_seamless twoKeys quarterHour 1 0 (by decide +kernel)⟩

-- a worker that looks for the private key between two writes of a rotation
example :
    (run (step begin (advance twoKeys quarterHour)) (start twoKeys 1 0)
      [.call (.rotate false), rotationTurn 0 1, rotationTurn 0 2, .call (.createAccessToken 0 none), rotationTurn 1 3,
        rotationTurn 1 4]).map (fun s => s.calls) = some [.moved false (some 1), .raised] := by
  decide +kernel

end Rotation

end NukeLab.KeyRotation
