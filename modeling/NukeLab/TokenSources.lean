import NukeLab.AuthSidecar
import NukeLab.QueryStrings

namespace NukeLab.TokenSources

open AuthSidecar QueryStrings

section Priority

variable (cfg : Config) (r : Request)

/-- What each of the sources has, in their order, and nothing where it has none. -/
def carried : List String :=
  [r.query cfg.tokenQueryParam, (originalUriToken cfg.tokenQueryParam (r.header "X-Original-Uri").toList).getD "",
    (r.cookie cfg.tokenCookie).getD "", authorizationToken (r.header cfg.tokenHeader)]

def firstToken (tokens : List String) : String := (tokens.find? fun token => token ≠ "").getD ""

structure FollowsPriority : Prop where
  first : extractToken cfg r = firstToken (carried cfg r)
  only : extractToken cfg r = "" → ∀ token ∈ carried cfg r, token = ""

/-- No empty value in the original URI or the cookie stands before a token. -/
def NoEmptyBefore : Prop :=
  r.query cfg.tokenQueryParam = "" →
    match originalUriToken cfg.tokenQueryParam (r.header "X-Original-Uri").toList with
    | some token =>
      token = "" → (r.cookie cfg.tokenCookie).getD "" = "" ∧ authorizationToken (r.header cfg.tokenHeader) = ""
    | none => r.cookie cfg.tokenCookie = some "" → authorizationToken (r.header cfg.tokenHeader) = ""

theorem firstToken_cons (token : String) (tokens : List String) :
    firstToken (token :: tokens) = if token = "" then firstToken tokens else token := by
  rw [firstToken]
  by_cases h : token = ""
  · rw [if_pos h, List.find?_cons_of_neg (by simpa using h), firstToken]
  · rw [if_neg h, List.find?_cons_of_pos (by simpa using h), Option.getD_some]

theorem firstToken_eq_empty_iff {tokens : List String} : firstToken tokens = "" ↔ ∀ token ∈ tokens, token = "" := by
  induction tokens with
  | nil => exact iff_of_true rfl fun token h => by cases h
  | cons token tokens ih =>
      rw [firstToken_cons, List.forall_mem_cons]
      by_cases h : token = ""
      · rw [if_pos h, ih, and_iff_right h]
      · rw [if_neg h]
        exact iff_of_false h fun hall => h hall.1

/-- What the sources behind the query parameters have. -/
def rest : String :=
  match r.cookie cfg.tokenCookie with
  | some value => value
  | none => authorizationToken (r.header cfg.tokenHeader)

theorem extractToken_eq : extractToken cfg r =
    if r.query cfg.tokenQueryParam ≠ "" then r.query cfg.tokenQueryParam
    else (originalUriToken cfg.tokenQueryParam (r.header "X-Original-Uri").toList).getD (rest cfg r) := by
  rw [extractToken, rest]
  split
  · rfl
  · cases originalUriToken cfg.tokenQueryParam (r.header "X-Original-Uri").toList with
    | none => rfl
    | some token => rfl

theorem first_iff : extractToken cfg r = firstToken (carried cfg r) ↔ NoEmptyBefore cfg r := by
  rw [extractToken_eq, carried, firstToken_cons, NoEmptyBefore]
  by_cases hown : r.query cfg.tokenQueryParam = ""
  · rw [if_neg (not_not.mpr hown), if_pos hown, firstToken_cons, forall_prop_of_true hown]
    cases originalUriToken cfg.tokenQueryParam (r.header "X-Original-Uri").toList with
    | some token =>
        rw [Option.getD_some, Option.getD_some]
        by_cases htoken : token = ""
        · rw [if_pos htoken, htoken, eq_comm, firstToken_eq_empty_iff]
          simp
        · rw [if_neg htoken]
          exact iff_of_true rfl fun h => absurd h htoken
    | none =>
        rw [Option.getD_none, Option.getD_none, if_pos rfl, firstToken_cons, rest]
        cases r.cookie cfg.tokenCookie with
        | none =>
            rw [Option.getD_none, if_pos rfl, firstToken_cons]
            refine iff_of_true ?_ fun h => by cases h
            by_cases hauth : authorizationToken (r.header cfg.tokenHeader) = ""
            · rw [if_pos hauth]
              exact hauth
            · rw [if_neg hauth]
        | some value =>
            rw [Option.getD_some]
            by_cases hvalue : value = ""
            · rw [if_pos hvalue, hvalue, eq_comm, firstToken_eq_empty_iff]
              simp
            · rw [if_neg hvalue]
              refine iff_of_true rfl fun h => ?_
              exact absurd (Option.some.inj h) hvalue
  · rw [if_pos hown, if_neg hown]
    exact iff_of_true rfl fun h => absurd h hown

theorem followsPriority_iff : FollowsPriority cfg r ↔ NoEmptyBefore cfg r := by
  rw [← first_iff]
  refine ⟨fun h => h.first, fun h => ⟨h, fun hempty => ?_⟩⟩
  rw [h] at hempty
  exact firstToken_eq_empty_iff.mp hempty

end Priority

section Forwarding

def namesOriginalUri (name : String) : Bool := name.toList.map Char.toLower = "x-original-uri".toList

def ownQuery (r : Request) (query : List Char) : Request :=
  { r with
    query := fun param => String.ofList (get param.toList query)
    header := fun name => if namesOriginalUri name then "" else r.header name }

/-- The request for which the proxy forwards a URI with the query. -/
def forwardedQuery (r : Request) (path query : List Char) : Request :=
  { r with
    query := fun _ => ""
    header := fun name => if namesOriginalUri name then String.ofList (path ++ '?' :: query) else r.header name }

def SameForwarded (cfg : Config) (query : List Char) : Prop :=
  ∀ (r : Request) (path : List Char), '?' ∉ path →
    extractToken cfg (ownQuery r query) = extractToken cfg (forwardedQuery r path query)

/-- The pair is one of the parameter as it is written. -/
def writtenAs (param pair : List Char) : Bool := '=' ∈ pair ∧ keyOf pair = param

/-- The first pair that is one of the parameter as it is written, and the first one that is
once it has been parsed, have the same value, which is not empty: where they are the
same pair it has no escapes. Without a pair as written there is no value when parsed, and
the original URI is not the token of the last source. -/
def PlainlyGiven (cfg : Config) (query : List Char) : Prop :=
  match (query.splitOn '&').find? (writtenAs cfg.tokenQueryParam.toList),
    (query.splitOn '&').find? (decodesTo cfg.tokenQueryParam.toList) with
  | none, none => ¬ namesOriginalUri cfg.tokenHeader
  | none, some parsed => valueOf parsed = [] ∧ ¬ namesOriginalUri cfg.tokenHeader
  | some _, none => False
  | some written, some parsed =>
    valueOf written ≠ [] ∧
      if written = parsed then '%' ∉ valueOf written ∧ '+' ∉ valueOf written
      else queryUnescape (valueOf parsed) = some (valueOf written)

variable {cfg : Config} {query : List Char}

theorem findSome?_written (param : String) (pairs : List (List Char)) :
    (pairs.findSome? fun pair =>
      if '=' ∈ pair ∧ String.ofList (pair.takeWhile (· ≠ '=')) = param then
        some (String.ofList ((pair.dropWhile (· ≠ '=')).drop 1))
      else none) = (pairs.find? (writtenAs param.toList)).map fun pair => String.ofList (valueOf pair) := by
  induction pairs with
  | nil => rfl
  | cons pair pairs ih =>
      have hkey : String.ofList (keyOf pair) = param ↔ keyOf pair = param.toList := by
        rw [← String.toList_inj, String.toList_ofList]
      rw [List.findSome?_cons]
      by_cases hpair : writtenAs param.toList pair = true
      · have hwritten := of_decide_eq_true hpair
        rw [if_pos ⟨hwritten.1, hkey.mpr hwritten.2⟩, List.find?_cons_of_pos hpair]
        rfl
      · rw [if_neg (fun h => hpair (decide_eq_true ⟨h.1, hkey.mp h.2⟩)), List.find?_cons_of_neg hpair]
        exact ih

theorem originalUriToken_forwarded (param : String) {path : List Char} (hpath : '?' ∉ path) (query : List Char) :
    originalUriToken param (path ++ '?' :: query) =
      ((query.splitOn '&').find? (writtenAs param.toList)).map fun pair => String.ofList (valueOf pair) := by
  have hne : ∀ c ∈ path, decide (c ≠ '?') = true := by
    intro c hc
    apply decide_eq_true
    rintro rfl
    exact hpath hc
  have hquery : ((path ++ '?' :: query).dropWhile (· ≠ '?')).drop 1 = query := by
    rw [List.dropWhile_append_of_pos hne]
    rfl
  have hmark : '?' ∈ path ++ '?' :: query := List.mem_append_right _ List.mem_cons_self
  rw [originalUriToken, if_pos hmark, hquery, findSome?_written]

theorem namesOriginalUri_self : namesOriginalUri "X-Original-Uri" = true := by decide

theorem extractToken_own (cfg : Config) (r : Request) (query : List Char) :
    extractToken cfg (ownQuery r query) =
      if get cfg.tokenQueryParam.toList query ≠ [] then String.ofList (get cfg.tokenQueryParam.toList query)
      else rest cfg (ownQuery r query) := by
  have hheader : (ownQuery r query).header "X-Original-Uri" = "" := by
    rw [ownQuery]
    dsimp only
    rw [if_pos namesOriginalUri_self]
  have huri : originalUriToken cfg.tokenQueryParam ((ownQuery r query).header "X-Original-Uri").toList = none := by
    rw [hheader]
    rfl
  have hquery : (ownQuery r query).query cfg.tokenQueryParam = String.ofList (get cfg.tokenQueryParam.toList query) := rfl
  have hempty : String.ofList (get cfg.tokenQueryParam.toList query) ≠ "" ↔ get cfg.tokenQueryParam.toList query ≠ [] := by
    rw [ne_eq, ← String.toList_inj, String.toList_ofList]
    rfl
  rw [extractToken_eq, huri, hquery, Option.getD_none]
  simp only [hempty]

theorem extractToken_forwarded (cfg : Config) (r : Request) {path : List Char} (hpath : '?' ∉ path) (query : List Char) :
    extractToken cfg (forwardedQuery r path query) =
      (((query.splitOn '&').find? (writtenAs cfg.tokenQueryParam.toList)).map fun pair =>
        String.ofList (valueOf pair)).getD (rest cfg (forwardedQuery r path query)) := by
  have huri : (forwardedQuery r path query).header "X-Original-Uri" = String.ofList (path ++ '?' :: query) := by
    rw [forwardedQuery]
    dsimp only
    rw [if_pos namesOriginalUri_self]
  have hquery : (forwardedQuery r path query).query cfg.tokenQueryParam = "" := rfl
  rw [extractToken_eq, huri, hquery, String.toList_ofList, originalUriToken_forwarded _ hpath, if_neg (not_not.mpr rfl)]

def cookieOnly (value : String) : Request := ⟨"", fun _ => "", fun _ => "", fun _ => some value⟩

theorem exists_ne (token : String) : ∃ value : String, value ≠ token := by
  by_cases h : token = "a"
  · exact ⟨"b", fun hb => absurd (hb.trans h) (by decide)⟩
  · exact ⟨"a", Ne.symm h⟩

theorem authorizationToken_original (query : List Char) :
    authorizationToken (String.ofList ('?' :: query)) = String.ofList ('?' :: query) := by
  rw [authorizationToken, String.toList_ofList, if_neg]
  rw [List.take_succ_cons, List.map_cons]
  intro hbearer
  cases (List.cons.inj hbearer).1

/-- The last source is not touched by where the query stands, unless it is the original URI
itself. -/
theorem rest_forwarded_iff (cfg : Config) (query : List Char) :
    (∀ (r : Request) (path : List Char), '?' ∉ path →
      rest cfg (ownQuery r query) = rest cfg (forwardedQuery r path query)) ↔
    ¬ namesOriginalUri cfg.tokenHeader := by
  constructor
  · intro h hnames
    have hrest := h ⟨"", fun _ => "", fun _ => "", fun _ => none⟩ [] List.not_mem_nil
    simp only [rest, ownQuery, forwardedQuery, if_pos hnames, List.nil_append] at hrest
    rw [authorizationToken_original] at hrest
    have hcons : ([] : List Char) = '?' :: query := by
      rw [← String.toList_ofList (l := '?' :: query), ← hrest]
      rfl
    cases hcons
  · intro hnames r path hpath
    rw [rest, rest, ownQuery, forwardedQuery]
    dsimp only
    rw [if_neg hnames, if_neg hnames]

/-- Whatever else the requests have, the tokens are the same exactly where both parsers
find the same value, not an empty one, or neither finds a token. -/
theorem sameForwarded_iff_values : SameForwarded cfg query ↔
    if get cfg.tokenQueryParam.toList query ≠ [] then
      ((query.splitOn '&').find? (writtenAs cfg.tokenQueryParam.toList)).map valueOf =
        some (get cfg.tokenQueryParam.toList query)
    else
      (query.splitOn '&').find? (writtenAs cfg.tokenQueryParam.toList) = none ∧ ¬ namesOriginalUri cfg.tokenHeader := by
  have hsame : SameForwarded cfg query ↔ ∀ (r : Request) (path : List Char), '?' ∉ path →
      (if get cfg.tokenQueryParam.toList query ≠ [] then String.ofList (get cfg.tokenQueryParam.toList query)
        else rest cfg (ownQuery r query)) =
      (((query.splitOn '&').find? (writtenAs cfg.tokenQueryParam.toList)).map fun pair =>
        String.ofList (valueOf pair)).getD (rest cfg (forwardedQuery r path query)) := by
    constructor
    · intro h r path hpath
      rw [← extractToken_own, ← extractToken_forwarded cfg r hpath]
      exact h r path hpath
    · intro h r path hpath
      rw [extractToken_own, extractToken_forwarded cfg r hpath]
      exact h r path hpath
  rw [hsame]
  by_cases hget : get cfg.tokenQueryParam.toList query ≠ []
  · simp only [if_pos hget]
    cases (query.splitOn '&').find? (writtenAs cfg.tokenQueryParam.toList) with
    | none =>
        obtain ⟨value, hvalue⟩ := exists_ne (String.ofList (get cfg.tokenQueryParam.toList query))
        exact iff_of_false (fun h => hvalue (h (cookieOnly value) [] List.not_mem_nil).symm) fun h => by cases h
    | some pair =>
        constructor
        · intro h
          exact congrArg some (String.ofList_inj.mp (h (cookieOnly "") [] List.not_mem_nil)).symm
        · intro h r path hpath
          rw [← Option.some.inj h]
          rfl
  · simp only [if_neg hget]
    cases (query.splitOn '&').find? (writtenAs cfg.tokenQueryParam.toList) with
    | none =>
        rw [and_iff_right rfl, ← rest_forwarded_iff cfg query]
        rfl
    | some pair =>
        obtain ⟨value, hvalue⟩ := exists_ne (String.ofList (valueOf pair))
        exact iff_of_false (fun h => hvalue (h (cookieOnly value) [] List.not_mem_nil)) fun h => by cases h.1

theorem sameForwarded_iff : SameForwarded cfg query ↔ PlainlyGiven cfg query := by
  rw [sameForwarded_iff_values, get_eq, PlainlyGiven]
  cases hparsed : (query.splitOn '&').find? (decodesTo cfg.tokenQueryParam.toList) with
  | none =>
      rw [Option.bind_none, Option.getD_none, if_neg (not_not.mpr rfl)]
      cases (query.splitOn '&').find? (writtenAs cfg.tokenQueryParam.toList) with
      | none => exact and_iff_right rfl
      | some written => exact iff_of_false (fun h => by cases h.1) id
  | some parsed =>
      obtain ⟨value, -, hvalue⟩ := parsePair_of_decodesTo (List.find?_some hparsed)
      rw [Option.bind_some, hvalue, Option.getD_some]
      have hempty : value = [] ↔ valueOf parsed = [] := by
        rw [← @queryUnescape_eq_nil_iff (valueOf parsed), hvalue, Option.some_inj]
      cases (query.splitOn '&').find? (writtenAs cfg.tokenQueryParam.toList) with
      | none =>
          dsimp only
          by_cases hnil : value = []
          · rw [if_neg (not_not.mpr hnil), and_iff_right rfl, and_iff_right (hempty.mp hnil)]
          · rw [if_pos hnil]
            exact iff_of_false (fun h => by cases h) fun h => hnil (hempty.mpr h.1)
      | some written =>
          have hplain : (if written = parsed then '%' ∉ valueOf written ∧ '+' ∉ valueOf written
              else queryUnescape (valueOf parsed) = some (valueOf written)) ↔ valueOf written = value := by
            by_cases hsame : written = parsed
            · rw [if_pos hsame, ← queryUnescape_eq_self_iff, hsame, hvalue, Option.some_inj, eq_comm]
            · rw [if_neg hsame, hvalue, Option.some_inj, eq_comm]
          dsimp only
          rw [hplain, Option.map_some, Option.some_inj]
          by_cases hnil : value = []
          · rw [if_neg (not_not.mpr hnil), hnil]
            exact iff_of_false (fun h => by cases h.1) fun h => h.1 h.2
          · rw [if_pos hnil]
            refine ⟨fun h => ⟨?_, h⟩, fun h => h.2⟩
            rw [h]
            exact hnil

end Forwarding

theorem extractToken_iff (cfg : Config) : (∀ r, FollowsPriority cfg r ↔ NoEmptyBefore cfg r) ∧
    ∀ query, SameForwarded cfg query ↔ PlainlyGiven cfg query :=
  ⟨followsPriority_iff cfg, fun _ => sameForwarded_iff⟩

def defaultConfig : Config := ⟨"", true, "RS256", "Authorization", "nukelab_server_token", "access_token", true, 100, 60⟩

/-- The request's cookie has the token, and the URI that the proxy was asked for has the
parameter without a value. -/
def emptyInUri : Request where
  remoteAddr := ""
  header := fun name => if namesOriginalUri name then "/lab?access_token=" else ""
  query := fun _ => ""
  cookie := fun name => if name = "nukelab_server_token" then some "abc" else none

theorem extractToken_emptyInUri : ¬ ∀ cfg, (∀ r, FollowsPriority cfg r) ∧ ∀ query, SameForwarded cfg query := by
  intro h
  obtain ⟨hpriority, -⟩ := h defaultConfig
  have hempty : extractToken defaultConfig emptyInUri = "" := by decide +kernel
  have hcookie : "abc" ∈ carried defaultConfig emptyInUri := by decide +kernel
  exact absurd ((hpriority emptyInUri).only hempty "abc" hcookie) (by decide)

/-- An escape is read in a query of the request's own, and not in the one that is forwarded. -/
example : ¬ SameForwarded defaultConfig "access_token=a%2Bb".toList := by
  intro h
  have hsame := h (cookieOnly "") "/lab".toList (by decide)
  exact absurd hsame (by decide +kernel)

end NukeLab.TokenSources
