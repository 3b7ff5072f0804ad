import NukeLab.DockerNames
import NukeLab.Webhooks

namespace NukeLab.VolumeNames

open DockerNames Webhooks
open Sha256 (sha256)
open XfsQuota (utf8)

def NameChars (cs : List Char) : Prop := ∀ c ∈ cs, c.isAlphanum ∨ isSeparator c

/-- `_DOCKER_VOLUME_NAME_PATTERN`. -/
def Matches : List Char → Prop
  | [] => False
  | c :: cs => c.isAlphanum ∧ NameChars cs

def WellFormed (name : String) (maxLen : Nat) : Prop := name.toList.length ≤ maxLen ∧ Matches name.toList

/-- `rstrip` of the separators. -/
def stripRight (cs : List Char) : List Char := (cs.reverse.dropWhile isSeparator).reverse

def imageDigest (image : String) : List Char := (hexdigest (sha256 (utf8 image))).toList.take 12

def makeToolchainVolumeName (image : String) (maxLen : Nat) : String :=
  let safePrefix := orDefault (sanitizeComponent "nukelab-toolchain".toList) "nukelab-toolchain"
  let safeImage := orDefault (sanitizeComponent image.toList) "toolchain"
  let suffix := '-' :: imageDigest image
  let base := safePrefix ++ '-' :: safeImage
  let base := if base.length + suffix.length > maxLen then stripRight (base.take (maxLen - suffix.length)) else base
  String.ofList (base ++ suffix)

def fixedParts (pre userIdentifier : String) (suffix : Option String) : List Char × List Char × Option (List Char) :=
  (orDefault (sanitizeComponent pre.toList) "nukelab", orDefault (sanitizeComponent userIdentifier.toList) "user",
    suffix.bind fun s => if sanitizeComponent s.toList = [] then none else some (sanitizeComponent s.toList))

def reservedLen (pre userIdentifier : String) (suffix : Option String) : Nat :=
  let parts := fixedParts pre userIdentifier suffix
  (joinName parts.1 parts.2.1 [] parts.2.2).length

section Chars

variable {cs ds : List Char} {c : Char}

theorem nameChar_cases (h : isNameChar c) : c.isAlphanum ∨ isSeparator c := by
  simp only [isNameChar, Bool.or_eq_true] at h
  rcases h with (hlower | hdigit) | hsep
  · left
    show (c.isUpper || c.isLower || c.isDigit) = true
    rw [hlower, Bool.or_true, Bool.true_or]
  · exact Or.inl (by simp [Char.isAlphanum, hdigit])
  · exact Or.inr hsep

theorem NameChars.append (hcs : NameChars cs) (hds : NameChars ds) : NameChars (cs ++ ds) := by
  intro c hc
  rcases List.mem_append.mp hc with hc | hc
  · exact hcs c hc
  · exact hds c hc

theorem NameChars.hyphen (h : NameChars cs) : NameChars ('-' :: cs) := by
  intro c hc
  rcases List.mem_cons.mp hc with rfl | hc
  · exact Or.inr rfl
  · exact h c hc

theorem NameChars.sublist (h : NameChars cs) (hds : ds.Sublist cs) : NameChars ds := fun c hc => h c (hds.mem hc)

theorem Matches.nameChars (h : Matches cs) : NameChars cs := by
  cases cs with
  | nil => exact h.elim
  | cons c cs =>
      intro d hd
      rcases List.mem_cons.mp hd with rfl | hd
      · exact Or.inl h.1
      · exact h.2 d hd

theorem Matches.append (hcs : Matches cs) (hds : NameChars ds) : Matches (cs ++ ds) := by
  cases cs with
  | nil => exact hcs.elim
  | cons c cs => exact ⟨hcs.1, hcs.2.append hds⟩

theorem nameChars_of_all (h : cs.all isNameChar = true) : NameChars cs := fun c hc =>
  nameChar_cases (List.all_eq_true.mp h c hc)

theorem nameChars_text (h : cs.all isNameChar = true) : NameChars (String.ofList cs).toList := by
  rw [String.toList_ofList]
  exact nameChars_of_all h

theorem matches_text (hc : c.isAlphanum) (hcs : cs.all isNameChar = true) : Matches (String.ofList (c :: cs)).toList := by
  rw [String.toList_ofList]
  exact ⟨hc, fun d hd => nameChar_cases (List.all_eq_true.mp hcs d hd)⟩

theorem replaceRuns_nameChars (inRun : Bool) : NameChars (replaceRuns inRun cs) := by
  induction cs generalizing inRun with
  | nil => exact fun c hc => absurd hc List.not_mem_nil
  | cons c cs ih =>
      rw [replaceRuns]
      split
      · rename_i hname
        intro d hd
        rcases List.mem_cons.mp hd with rfl | hd
        · exact nameChar_cases hname
        · exact ih false d hd
      · split
        · exact ih true
        · exact (ih true).hyphen

theorem stripRight_initial (cs : List Char) : stripRight cs <+: cs := by
  have hsuffix := List.dropWhile_suffix isSeparator (l := cs.reverse)
  rw [stripRight, ← List.reverse_suffix, List.reverse_reverse]
  exact hsuffix

theorem strip_matches (h : NameChars cs) (hne : stripSeparators cs ≠ []) : Matches (stripSeparators cs) := by
  have hinitial : stripSeparators cs <+: cs.dropWhile isSeparator := stripRight_initial _
  have hchars : NameChars (stripSeparators cs) :=
    h.sublist (hinitial.sublist.trans (List.dropWhile_sublist isSeparator))
  cases hstrip : stripSeparators cs with
  | nil => exact absurd hstrip hne
  | cons c rest =>
      rw [hstrip] at hinitial hchars
      obtain ⟨tail, htail⟩ := hinitial
      have hhead := List.head?_dropWhile_not isSeparator cs
      rw [← htail, List.cons_append, List.head?_cons] at hhead
      refine ⟨(hchars c List.mem_cons_self).resolve_right ?_, fun d hd => hchars d (List.mem_cons_of_mem c hd)⟩
      simpa using hhead

theorem sanitize_matches {value : List Char} (h : sanitizeComponent value ≠ []) : Matches (sanitizeComponent value) :=
  strip_matches (replaceRuns_nameChars false) h

theorem orDefault_matches {value : List Char} {fallback : String} (h : Matches fallback.toList) :
    Matches (orDefault (sanitizeComponent value) fallback) := by
  rw [orDefault]
  split
  · exact h
  · exact sanitize_matches ‹_›

end Chars

section Resources

variable {pre user name : List Char} {suffix : Option (List Char)}

theorem length_joinName : (joinName pre user name suffix).length = (joinName pre user [] suffix).length + name.length := by
  cases suffix <;> simp only [joinName, List.length_append, List.length_cons, List.length_nil] <;> omega

theorem joinName_matches (hpre : Matches pre) (huser : NameChars user) (hname : NameChars name)
    (hsuffix : ∀ s, suffix = some s → NameChars s) : Matches (joinName pre user name suffix) := by
  cases suffix with
  | none => exact (hpre.append huser.hyphen).append hname.hyphen
  | some s => exact ((hpre.append huser.hyphen).append hname.hyphen).append (hsuffix s rfl).hyphen

theorem fixedParts_matches (pre userIdentifier : String) (suffix : Option String) :
    Matches (fixedParts pre userIdentifier suffix).1 ∧ Matches (fixedParts pre userIdentifier suffix).2.1 ∧
      ∀ s, (fixedParts pre userIdentifier suffix).2.2 = some s → NameChars s := by
  simp only [fixedParts]
  refine ⟨orDefault_matches (matches_text rfl rfl), orDefault_matches (matches_text rfl rfl), ?_⟩
  · intro s hs
    obtain ⟨text, -, htext⟩ := Option.bind_eq_some_iff.mp hs
    split at htext
    · cases htext
    · rename_i hne
      exact Option.some.inj htext ▸ (sanitize_matches hne).nameChars

theorem serverName_matches (serverName : String) : Matches (orDefault (sanitizeComponent serverName.toList) "server") :=
  orDefault_matches (matches_text rfl rfl)

theorem makeDockerResourceName_eq (pre userIdentifier serverName : String) (suffix : Option String) (maxLen : Nat) :
    ∃ name, name.Sublist (orDefault (sanitizeComponent serverName.toList) "server") ∧
      (reservedLen pre userIdentifier suffix < maxLen → reservedLen pre userIdentifier suffix + name.length ≤ maxLen) ∧
      (makeDockerResourceName pre userIdentifier serverName suffix maxLen).toList =
        joinName (fixedParts pre userIdentifier suffix).1 (fixedParts pre userIdentifier suffix).2.1 name
          (fixedParts pre userIdentifier suffix).2.2 := by
  simp only [makeDockerResourceName, fixedParts, reservedLen]
  generalize orDefault (sanitizeComponent pre.toList) "nukelab" = safePrefix
  generalize orDefault (sanitizeComponent userIdentifier.toList) "user" = safeUser
  generalize orDefault (sanitizeComponent serverName.toList) "server" = safeServerName
  generalize (suffix.bind fun s =>
    if sanitizeComponent s.toList = [] then none else some (sanitizeComponent s.toList)) = safeSuffix
  generalize hreserved : (joinName safePrefix safeUser [] safeSuffix).length = reserved
  split
  · refine ⟨_, List.take_sublist _ _, fun hroom => ?_, String.toList_ofList⟩
    have hlen := List.length_take_le (max 1 (maxLen - reserved)) safeServerName
    omega
  · rename_i hfits
    refine ⟨_, List.Sublist.refl _, fun _ => ?_, String.toList_ofList⟩
    rwa [length_joinName, hreserved, Nat.not_lt] at hfits

theorem resourceName_matches (pre userIdentifier serverName : String) (suffix : Option String) (maxLen : Nat) :
    Matches (makeDockerResourceName pre userIdentifier serverName suffix maxLen).toList := by
  obtain ⟨name, hname, -, heq⟩ := makeDockerResourceName_eq pre userIdentifier serverName suffix maxLen
  obtain ⟨hpre, huser, hsuffix⟩ := fixedParts_matches pre userIdentifier suffix
  rw [heq]
  exact joinName_matches hpre huser.nameChars ((serverName_matches serverName).nameChars.sublist hname) hsuffix

theorem resourceName_nameChars (pre userIdentifier serverName : String) (suffix : Option String) (maxLen : Nat) :
    NameChars (makeDockerResourceName pre userIdentifier serverName suffix maxLen).toList :=
  (resourceName_matches pre userIdentifier serverName suffix maxLen).nameChars

theorem resourceName_wellFormed {pre userIdentifier serverName : String} {suffix : Option String} {maxLen : Nat}
    (h : reservedLen pre userIdentifier suffix < maxLen) :
    WellFormed (makeDockerResourceName pre userIdentifier serverName suffix maxLen) maxLen := by
  obtain ⟨name, -, hroom, heq⟩ := makeDockerResourceName_eq pre userIdentifier serverName suffix maxLen
  refine ⟨?_, resourceName_matches pre userIdentifier serverName suffix maxLen⟩
  rw [heq, length_joinName]
  exact hroom h

end Resources

section Toolchains

theorem hexDigit_alphanum {n : Nat} (h : n < 16) : (Nat.digitChar n).isAlphanum := by
  have hall : ∀ n < 16, (Nat.digitChar n).isAlphanum := by decide
  exact hall n h

theorem hexdigest_alphanum (bytes : List Nat) : ∀ c ∈ (hexdigest bytes).toList, c.isAlphanum := by
  intro c hc
  rw [hexdigest, String.toList_ofList] at hc
  obtain ⟨b, -, hb⟩ := List.mem_flatMap.mp hc
  rcases List.mem_cons.mp hb with rfl | hb
  · exact hexDigit_alphanum (Nat.mod_lt _ (by omega))
  · obtain rfl := List.mem_singleton.mp hb
    exact hexDigit_alphanum (Nat.mod_lt _ (by omega))

theorem length_hexdigest (bytes : List Nat) : (hexdigest bytes).toList.length = 2 * bytes.length := by
  rw [hexdigest, String.toList_ofList]
  induction bytes with
  | nil => rfl
  | cons b bytes ih =>
      rw [List.flatMap_cons, List.length_append, ih]
      simp only [List.length_cons, List.length_nil]
      omega

theorem length_littleEndian (k n : Nat) : (Md5.littleEndian k n).length = k := by
  induction k generalizing n with
  | zero => rfl
  | succ k ih => rw [Md5.littleEndian, List.length_cons, ih]

theorem length_sha256 (bytes : List Nat) : (sha256 bytes).length = 32 := by
  simp only [sha256, Sha256.bigEndian, List.flatMap_cons, List.flatMap_nil, List.length_append, List.length_reverse,
    length_littleEndian, List.length_nil]

theorem length_imageDigest (image : String) : (imageDigest image).length = 12 := by
  rw [imageDigest, List.length_take, length_hexdigest, length_sha256]
  rfl

theorem imageDigest_nameChars (image : String) : NameChars (imageDigest image) := fun c hc =>
  Or.inl (hexdigest_alphanum _ c (List.mem_of_mem_take hc))

theorem stripRight_cons {c : Char} {cs : List Char} (h : isSeparator c = false) :
    ∃ rest, stripRight (c :: cs) = c :: rest := by
  obtain ⟨tail, htail⟩ := stripRight_initial (c :: cs)
  cases hstrip : stripRight (c :: cs) with
  | nil =>
      have hnil : (c :: cs).reverse.dropWhile isSeparator = [] := List.reverse_eq_nil_iff.mp hstrip
      have hall := List.dropWhile_eq_nil_iff.mp hnil c (by simp)
      rw [h] at hall
      cases hall
  | cons d rest =>
      rw [hstrip, List.cons_append] at htail
      obtain ⟨rfl, -⟩ := List.cons.inj htail
      exact ⟨rest, rfl⟩

def toolchainBase (image : String) : List Char :=
  orDefault (sanitizeComponent "nukelab-toolchain".toList) "nukelab-toolchain" ++
    '-' :: orDefault (sanitizeComponent image.toList) "toolchain"

theorem toolchainBase_cons (image : String) : ∃ rest, toolchainBase image = 'n' :: rest ∧ NameChars rest := by
  have himage : Matches (orDefault (sanitizeComponent image.toList) "toolchain") := orDefault_matches (matches_text rfl rfl)
  have hinitial : orDefault (sanitizeComponent "nukelab-toolchain".toList) "nukelab-toolchain" =
      'n' :: "ukelab-toolchain".toList := by
    rw [String.toList_ofList, String.toList_ofList]
    rfl
  rw [toolchainBase, hinitial, List.cons_append]
  exact ⟨_, rfl, (nameChars_text rfl).append himage.nameChars.hyphen⟩

theorem makeToolchainVolumeName_eq (image : String) {maxLen : Nat} (h : 13 < maxLen) :
    ∃ base, Matches base ∧ base.length + 13 ≤ maxLen ∧
      (makeToolchainVolumeName image maxLen).toList = base ++ '-' :: imageDigest image := by
  have hdigest : ('-' :: imageDigest image).length = 13 := by rw [List.length_cons, length_imageDigest]
  obtain ⟨rest, hbase, hrest⟩ := toolchainBase_cons image
  have hname : makeToolchainVolumeName image maxLen = String.ofList
      ((if (toolchainBase image).length + ('-' :: imageDigest image).length > maxLen
        then stripRight ((toolchainBase image).take (maxLen - ('-' :: imageDigest image).length)) else toolchainBase image) ++
        '-' :: imageDigest image) := rfl
  rw [hname, String.toList_ofList, hdigest, hbase]
  split
  · obtain ⟨room, hroom⟩ : ∃ room, maxLen - 13 = room + 1 := ⟨maxLen - 14, by omega⟩
    rw [hroom, List.take_succ_cons]
    obtain ⟨cut, hcut⟩ : ∃ cut, stripRight ('n' :: rest.take room) = 'n' :: cut := stripRight_cons rfl
    have hinitial : 'n' :: cut <+: 'n' :: rest.take room := hcut ▸ stripRight_initial _
    have hcutrest : cut <+: rest.take room := (List.cons_prefix_cons.mp hinitial).2
    refine ⟨'n' :: cut, ⟨rfl, hrest.sublist (hcutrest.sublist.trans (List.take_sublist room rest))⟩, ?_, by rw [hcut]⟩
    have hlen := hcutrest.length_le.trans (List.length_take_le room rest)
    rw [List.length_cons]
    omega
  · exact ⟨'n' :: rest, ⟨rfl, hrest⟩, Nat.not_lt.mp ‹_›, rfl⟩

theorem toolchainName_wellFormed (image : String) {maxLen : Nat} (h : 13 < maxLen) :
    WellFormed (makeToolchainVolumeName image maxLen) maxLen := by
  obtain ⟨base, hbase, hlen, hname⟩ := makeToolchainVolumeName_eq image h
  rw [WellFormed, hname]
  refine ⟨?_, hbase.append (imageDigest_nameChars image).hyphen⟩
  rw [List.length_append, List.length_cons, length_imageDigest]
  exact hlen

theorem toolchainName_nameChars (image : String) {maxLen : Nat} (h : 13 < maxLen) :
    NameChars (makeToolchainVolumeName image maxLen).toList := (toolchainName_wellFormed image h).2.nameChars

theorem imageDigest_eq_of_name {image other : String} {maxLen maxLen' : Nat}
    (h : makeToolchainVolumeName image maxLen = makeToolchainVolumeName other maxLen') : imageDigest image = imageDigest other := by
  have hends : ∀ image maxLen, ∃ base, (makeToolchainVolumeName image maxLen).toList = base ++ '-' :: imageDigest image :=
    fun _ _ => ⟨_, String.toList_ofList⟩
  obtain ⟨base, hbase⟩ := hends image maxLen
  obtain ⟨base', hbase'⟩ := hends other maxLen'
  rw [← h, hbase] at hbase'
  have hlength : ('-' :: imageDigest image).length = ('-' :: imageDigest other).length := by
    rw [List.length_cons, length_imageDigest, List.length_cons, length_imageDigest]
  have hsame := List.append_inj_right' hbase' hlength
  exact (List.cons.inj hsame).2

end Toolchains

/-- The names of resources and of toolchain volumes are well formed, and two images
that share a toolchain volume have the same digest. -/
theorem names_wellFormed :
    (∀ pre userIdentifier serverName suffix maxLen, reservedLen pre userIdentifier suffix + 1 ≤ maxLen →
      WellFormed (makeDockerResourceName pre userIdentifier serverName suffix maxLen) maxLen) ∧
    (∀ image maxLen, 40 ≤ maxLen → WellFormed (makeToolchainVolumeName image maxLen) maxLen) ∧
    ∀ image other maxLen, 40 ≤ maxLen → makeToolchainVolumeName image maxLen = makeToolchainVolumeName other maxLen →
      imageDigest image = imageDigest other := by
  refine ⟨?_, ?_, ?_⟩
  · intro pre userIdentifier serverName suffix maxLen h
    exact resourceName_wellFormed h
  · intro image maxLen h
    exact toolchainName_wellFormed image (by omega)
  · intro image other maxLen _ h
    exact imageDigest_eq_of_name h

end NukeLab.VolumeNames
