import Mathlib.Data.List.Infix
import RuntimeAnalyzer.Lib.Decimal

/-!
# URI references

The references of RFC 3986 as bytes: five components, which bytes each may hold, and the text they
are written as. `percentDecode` reads the bytes that `%` and two hexadecimal digits stand for. A
text with such a triplet is shorter when it is decoded (`Encoded.length_decode_lt`), so a reference
that is its own decoding holds none.
-/

namespace Uri

/-! ## Bytes -/

/-- `'%'` -/
abbrev percent : UInt8 := 37

/-- `'/'` -/
abbrev slash : UInt8 := 47

/-- `':'` -/
abbrev colon : UInt8 := 58

def isAlpha (byte : UInt8) : Bool :=
  (65 ≤ byte && byte ≤ 90) || (97 ≤ byte && byte ≤ 122)

def isHexDigit (byte : UInt8) : Bool :=
  Decimal.isDigit byte || (65 ≤ byte && byte ≤ 70) || (97 ≤ byte && byte ≤ 102)

/-- The number a hexadecimal digit stands for. -/
def hexValue (byte : UInt8) : UInt8 :=
  if byte ≤ 57 then byte - 48 else if byte ≤ 70 then byte - 55 else byte - 87

/-- Letters, digits, `-`, `.`, `_` and `~`. -/
def isUnreserved (byte : UInt8) : Bool :=
  isAlpha byte || Decimal.isDigit byte || byte = 45 || byte = 46 || byte = 95 || byte = 126

/-- `!`, `$`, `&`, `'`, `(`, `)`, `*`, `+`, `,`, `;` and `=`. -/
def isSubDelim (byte : UInt8) : Bool :=
  byte = 33 || byte = 36 || (38 ≤ byte && byte ≤ 44) || byte = 59 || byte = 61

/-- A byte of a path segment. -/
def isPchar (byte : UInt8) : Bool :=
  isUnreserved byte || isSubDelim byte || byte = colon || byte = 64

/-- A byte of a path. -/
def isPathByte (byte : UInt8) : Bool :=
  isPchar byte || byte = slash

/-- A byte of a query or a fragment: a slash and a question mark may stand there. -/
def isQueryByte (byte : UInt8) : Bool :=
  isPathByte byte || byte = 63

/-- A byte of user information. -/
def isUserByte (byte : UInt8) : Bool :=
  isUnreserved byte || isSubDelim byte || byte = colon

/-- A byte of a registered name. -/
def isNameByte (byte : UInt8) : Bool :=
  isUnreserved byte || isSubDelim byte

/-- A text of the given bytes, and of triplets `%` and two digits. -/
inductive Encoded (allowed : UInt8 → Bool) : List UInt8 → Prop
  | nil : Encoded allowed []
  | byte {byte : UInt8} {rest : List UInt8} (h : allowed byte = true)
      (hrest : Encoded allowed rest) : Encoded allowed (byte :: rest)
  | triplet {high low : UInt8} {rest : List UInt8} (hhigh : isHexDigit high = true)
      (hlow : isHexDigit low = true) (hrest : Encoded allowed rest) :
      Encoded allowed (percent :: high :: low :: rest)

/-- The bytes that a text stands for. -/
def percentDecode : List UInt8 → List UInt8
  | byte :: high :: low :: rest =>
      if byte = percent ∧ isHexDigit high = true ∧ isHexDigit low = true then
        (16 * hexValue high + hexValue low) :: percentDecode rest
      else byte :: percentDecode (high :: low :: rest)
  | byte :: rest => byte :: percentDecode rest
  | [] => []

/-! ## References -/

/-- A group of an IPv6 address: one to four hexadecimal digits. -/
def IsGroup (text : List UInt8) : Prop :=
  1 ≤ text.length ∧ text.length ≤ 4 ∧ ∀ byte ∈ text, isHexDigit byte = true

/-- A number from 0 to 255, without leading zeros. -/
def IsOctet (text : List UInt8) : Prop :=
  ∃ number < 256, text = Decimal.render number

/-- An IPv4 address. -/
def IsIpv4 (text : List UInt8) : Prop :=
  ∃ octets : List (List UInt8), octets.length = 4 ∧ (∀ octet ∈ octets, IsOctet octet) ∧
    text = [46].intercalate octets

/-- Some groups of an IPv6 address; an IPv4 address at the end stands for two. -/
inductive IsGroups : Nat → List UInt8 → Prop
  | none : IsGroups 0 []
  | groups {groups : List (List UInt8)} (hne : groups ≠ [])
      (hgroups : ∀ group ∈ groups, IsGroup group) :
      IsGroups groups.length ([colon].intercalate groups)
  | ipv4 {groups : List (List UInt8)} {last : List UInt8}
      (hgroups : ∀ group ∈ groups, IsGroup group) (hlast : IsIpv4 last) :
      IsGroups (groups.length + 2) ([colon].intercalate (groups ++ [last]))

/-- An IPv6 address: eight groups, or fewer around a `::` that no IPv4 address stands before. -/
inductive IsIpv6 : List UInt8 → Prop
  | full {text : List UInt8} (h : IsGroups 8 text) : IsIpv6 text
  | elided {groups : List (List UInt8)} {count : Nat} {right : List UInt8}
      (hgroups : ∀ group ∈ groups, IsGroup group) (hright : IsGroups count right)
      (hcount : groups.length + count ≤ 7) :
      IsIpv6 ([colon].intercalate groups ++ colon :: colon :: right)

/-- A future version of an IP address: `v`, a version, a dot and an address. -/
def IsIpFuture (text : List UInt8) : Prop :=
  ∃ letter version address, (letter = 86 ∨ letter = 118) ∧
    text = letter :: version ++ 46 :: address ∧
    version ≠ [] ∧ (∀ byte ∈ version, isHexDigit byte = true) ∧
    address ≠ [] ∧ ∀ byte ∈ address, isUserByte byte = true

/-- A host: an IP address in brackets, or a registered name. An IPv4 address is one. -/
inductive IsHost : List UInt8 → Prop
  | literal {address : List UInt8} (h : IsIpv6 address ∨ IsIpFuture address) :
      IsHost (91 :: address ++ [93])
  | name {text : List UInt8} (h : Encoded isNameByte text) : IsHost text

/-- `[user@]host[:port]` -/
def IsAuthority (text : List UInt8) : Prop :=
  ∃ user host port, text = user ++ host ++ port ∧ IsHost host ∧
    (user = [] ∨ ∃ information, user = information ++ [64] ∧ Encoded isUserByte information) ∧
    (port = [] ∨ ∃ digits, port = colon :: digits ∧ ∀ byte ∈ digits, Decimal.isDigit byte = true)

/-- A scheme: a letter, then letters, digits, `+`, `-` and `.`. -/
def IsScheme (text : List UInt8) : Prop :=
  ∃ letter rest, text = letter :: rest ∧ isAlpha letter = true ∧
    ∀ byte ∈ rest,
      (isAlpha byte || Decimal.isDigit byte || byte = 43 || byte = 45 || byte = 46) = true

/-- The components of a reference. -/
structure Reference where
  scheme : Option (List UInt8) := none
  authority : Option (List UInt8) := none
  path : List UInt8 := []
  query : Option (List UInt8) := none
  fragment : Option (List UInt8) := none

namespace Reference

/-- The reference as it is written. -/
def text (reference : Reference) : List UInt8 :=
  ((reference.scheme.map (· ++ [colon])).getD [] ++
      (reference.authority.map (slash :: slash :: ·)).getD []) ++
    (reference.path ++
      ((reference.query.map ((63 : UInt8) :: ·)).getD [] ++
        (reference.fragment.map ((35 : UInt8) :: ·)).getD []))

/-- The components are what the grammar allows, each by itself and next to the others. -/
structure Valid (reference : Reference) : Prop where
  scheme : ∀ scheme, reference.scheme = some scheme → IsScheme scheme
  authority : ∀ authority, reference.authority = some authority → IsAuthority authority
  path : Encoded isPathByte reference.path
  query : ∀ query, reference.query = some query → Encoded isQueryByte query
  fragment : ∀ fragment, reference.fragment = some fragment → Encoded isQueryByte fragment
  /-- After an authority the path is empty or starts with a slash. -/
  rooted : reference.authority ≠ none → reference.path = [] ∨ reference.path.head? = some slash
  /-- Without one it does not start like one. -/
  unrooted : reference.authority = none → ¬ [slash, slash] <+: reference.path
  /-- The first segment of a relative path does not look like a scheme. -/
  relative : reference.scheme = none → reference.authority = none →
    colon ∉ reference.path.takeWhile (· ≠ slash)

end Reference

/-- A URI or a relative reference. -/
def IsReference (text : List UInt8) : Prop :=
  ∃ reference : Reference, reference.Valid ∧ reference.text = text

/-! ## Decoding -/

section Decoding

variable {text rest : List UInt8} {allowed : UInt8 → Bool}

theorem percentDecode_cons_of_ne {byte : UInt8} (h : byte ≠ percent) (rest : List UInt8) :
    percentDecode (byte :: rest) = byte :: percentDecode rest := by
  match rest with
  | [] => rfl
  | [_] => rfl
  | high :: low :: rest => rw [percentDecode, if_neg fun htriplet => h htriplet.1]

/-- A text without triplets stands for itself. -/
theorem percentDecode_of_not_mem (h : percent ∉ text) : percentDecode text = text := by
  induction text with
  | nil => rfl
  | cons byte rest ih =>
      have hbyte : byte ≠ percent := fun heq => h (by simp [heq])
      rw [percentDecode_cons_of_ne hbyte, ih fun hmem => h (List.mem_cons_of_mem _ hmem)]

theorem length_percentDecode_le (text : List UInt8) :
    (percentDecode text).length ≤ text.length := by
  fun_induction percentDecode text with
  | case1 byte high low rest _ ih =>
      simp only [List.length_cons]
      omega
  | case2 byte high low rest _ ih => exact Nat.succ_le_succ ih
  | case3 byte rest _ ih => exact Nat.succ_le_succ ih
  | case4 => exact Nat.le_refl _

/-- A text with a triplet stands for fewer bytes. -/
theorem Encoded.length_decode_lt (h : Encoded allowed text) (hallowed : allowed percent = false)
    (hmem : percent ∈ text) : (percentDecode text).length < text.length := by
  induction h with
  | nil => cases hmem
  | @byte byte rest hbyte _ ih =>
      have hne : byte ≠ percent := by
        rintro rfl
        simp [hbyte] at hallowed
      rw [percentDecode_cons_of_ne hne, List.length_cons, List.length_cons]
      exact Nat.succ_lt_succ (ih ((List.mem_cons.mp hmem).resolve_left hne.symm))
  | @triplet high low rest hhigh hlow _ _ =>
      have hle := length_percentDecode_le rest
      rw [percentDecode, if_pos ⟨rfl, hhigh, hlow⟩]
      simp only [List.length_cons]
      exact Nat.lt_of_le_of_lt (Nat.succ_le_succ hle) (by omega)

theorem Encoded.mono {more : UInt8 → Bool} (h : Encoded allowed text)
    (himp : ∀ byte, allowed byte = true → more byte = true) : Encoded more text := by
  induction h with
  | nil => exact .nil
  | byte hbyte _ ih => exact .byte (himp _ hbyte) ih
  | triplet hhigh hlow _ ih => exact .triplet hhigh hlow ih

theorem Encoded.append (h : Encoded allowed text) (hrest : Encoded allowed rest) :
    Encoded allowed (text ++ rest) := by
  induction h with
  | nil => exact hrest
  | byte hbyte _ ih => exact .byte hbyte ih
  | triplet hhigh hlow _ ih => exact .triplet hhigh hlow ih

theorem encoded_of_forall (h : ∀ byte ∈ text, allowed byte = true) : Encoded allowed text := by
  induction text with
  | nil => exact .nil
  | cons byte rest ih =>
      obtain ⟨hbyte, hrest⟩ := List.forall_mem_cons.mp h
      exact .byte hbyte (ih hrest)

/-- Without a `%` there are only the bytes that are allowed. -/
theorem Encoded.forall_of_not_mem (h : Encoded allowed text) (hmem : percent ∉ text) :
    ∀ byte ∈ text, allowed byte = true := by
  induction h with
  | nil => simp
  | byte hbyte _ ih =>
      exact List.forall_mem_cons.mpr ⟨hbyte, ih fun h => hmem (List.mem_cons_of_mem _ h)⟩
  | triplet => simp at hmem

end Decoding

/-! ## The bytes of a reference -/

/-- A byte that some part of a reference may hold as it stands: an unreserved or a reserved one. -/
def isReferenceByte (byte : UInt8) : Bool :=
  isQueryByte byte || byte = 35 || byte = 91 || byte = 93

theorem isReferenceByte_of_name {byte : UInt8} (h : isNameByte byte = true) :
    isReferenceByte byte = true := by
  rw [isNameByte, Bool.or_eq_true] at h
  rcases h with h | h <;> simp [isReferenceByte, isQueryByte, isPathByte, isPchar, h]

theorem isReferenceByte_of_user {byte : UInt8} (h : isUserByte byte = true) :
    isReferenceByte byte = true := by
  rw [isUserByte, Bool.or_eq_true, ← isNameByte] at h
  rcases h with h | h
  · exact isReferenceByte_of_name h
  · simp [isReferenceByte, isQueryByte, isPathByte, isPchar, h]

theorem isReferenceByte_of_digit {byte : UInt8} (h : Decimal.isDigit byte = true) :
    isReferenceByte byte = true :=
  isReferenceByte_of_name (by simp [isNameByte, isUnreserved, h])

theorem isReferenceByte_of_alpha {byte : UInt8} (h : isAlpha byte = true) :
    isReferenceByte byte = true :=
  isReferenceByte_of_name (by simp [isNameByte, isUnreserved, h])

theorem isReferenceByte_of_hex {byte : UInt8} (h : isHexDigit byte = true) :
    isReferenceByte byte = true := by
  rw [isHexDigit, Bool.or_assoc, Bool.or_eq_true] at h
  rcases h with h | h
  · exact isReferenceByte_of_digit h
  · refine isReferenceByte_of_alpha ?_
    simp only [isAlpha, Bool.or_eq_true, Bool.and_eq_true, decide_eq_true_eq,
      UInt8.le_iff_toNat_le, UInt8.reduceToNat] at h ⊢
    omega

/-- The text is of bytes that a reference may hold. -/
def Plain (text : List UInt8) : Prop :=
  ∀ byte ∈ text, isReferenceByte byte = true

theorem Plain.intercalate {separator : UInt8} {pieces : List (List UInt8)}
    (hseparator : isReferenceByte separator = true) (h : ∀ piece ∈ pieces, Plain piece) :
    Plain ([separator].intercalate pieces) := by
  induction pieces with
  | nil => simp [Plain]
  | cons piece pieces ih =>
      obtain ⟨hpiece, hpieces⟩ := List.forall_mem_cons.mp h
      cases pieces with
      | nil => simpa using hpiece
      | cons next pieces =>
          rw [List.intercalate_cons_cons]
          intro byte hbyte
          rw [List.mem_append, List.mem_append, List.mem_singleton] at hbyte
          rcases hbyte with (hbyte | rfl) | hbyte
          · exact hpiece byte hbyte
          · exact hseparator
          · exact ih hpieces byte hbyte

theorem IsGroup.plain {text : List UInt8} (h : IsGroup text) : Plain text :=
  fun byte hbyte => isReferenceByte_of_hex (h.2.2 byte hbyte)

theorem IsIpv4.plain {text : List UInt8} (h : IsIpv4 text) : Plain text := by
  obtain ⟨octets, _, hoctets, rfl⟩ := h
  refine .intercalate (by decide) fun octet hoctet byte hbyte => ?_
  obtain ⟨number, _, rfl⟩ := hoctets octet hoctet
  exact isReferenceByte_of_digit (Decimal.isDigit_of_mem_render hbyte)

theorem IsGroups.plain {count : Nat} {text : List UInt8} (h : IsGroups count text) :
    Plain text := by
  cases h with
  | none => simp [Plain]
  | groups _ hgroups =>
      exact .intercalate (by decide) fun group hgroup => (hgroups group hgroup).plain
  | ipv4 hgroups hlast =>
      refine .intercalate (by decide) fun piece hpiece => ?_
      rcases List.mem_append.mp hpiece with hgroup | hpiece
      · exact (hgroups piece hgroup).plain
      · rw [List.mem_singleton.mp hpiece]
        exact hlast.plain

theorem IsIpv6.plain {text : List UInt8} (h : IsIpv6 text) : Plain text := by
  cases h with
  | full h => exact h.plain
  | elided hgroups hright _ =>
      have hcolon : isReferenceByte colon = true := by decide
      have hleft := Plain.intercalate hcolon fun group hgroup => (hgroups group hgroup).plain
      refine List.forall_mem_append.mpr ⟨hleft, ?_⟩
      exact List.forall_mem_cons.mpr ⟨hcolon, List.forall_mem_cons.mpr ⟨hcolon, hright.plain⟩⟩

theorem IsIpFuture.plain {text : List UInt8} (h : IsIpFuture text) : Plain text := by
  obtain ⟨letter, version, address, hletter, rfl, _, hversion, _, haddress⟩ := h
  have hletter : isReferenceByte letter = true := by rcases hletter with rfl | rfl <;> decide
  refine List.forall_mem_append.mpr ⟨List.forall_mem_cons.mpr ⟨hletter, ?_⟩,
    List.forall_mem_cons.mpr ⟨by decide, ?_⟩⟩
  · exact fun byte hbyte => isReferenceByte_of_hex (hversion byte hbyte)
  · exact fun byte hbyte => isReferenceByte_of_user (haddress byte hbyte)

theorem IsHost.encoded {text : List UInt8} (h : IsHost text) : Encoded isReferenceByte text := by
  cases h with
  | literal haddress =>
      have hplain : Plain _ := haddress.elim IsIpv6.plain IsIpFuture.plain
      exact .byte (by decide) ((encoded_of_forall hplain).append (.byte (by decide) .nil))
  | name h => exact h.mono fun _ => isReferenceByte_of_name

theorem IsAuthority.encoded {text : List UInt8} (h : IsAuthority text) :
    Encoded isReferenceByte text := by
  obtain ⟨user, host, port, rfl, hhost, huser, hport⟩ := h
  have huser : Encoded isReferenceByte user := by
    rcases huser with rfl | ⟨information, rfl, hinformation⟩
    · exact .nil
    · exact (hinformation.mono fun _ => isReferenceByte_of_user).append (.byte (by decide) .nil)
  have hport : Encoded isReferenceByte port := by
    rcases hport with rfl | ⟨digits, rfl, hdigits⟩
    · exact .nil
    · exact .byte (by decide)
        (encoded_of_forall fun byte hbyte => isReferenceByte_of_digit (hdigits byte hbyte))
  exact (huser.append hhost.encoded).append hport

theorem IsScheme.encoded {text : List UInt8} (h : IsScheme text) :
    Encoded isReferenceByte text := by
  obtain ⟨letter, rest, rfl, hletter, hrest⟩ := h
  refine .byte (isReferenceByte_of_alpha hletter) (encoded_of_forall fun byte hbyte => ?_)
  have hbyte := hrest byte hbyte
  simp only [Bool.or_eq_true, decide_eq_true_eq] at hbyte
  rcases hbyte with (((h | h) | rfl) | rfl) | rfl
  · exact isReferenceByte_of_alpha h
  · exact isReferenceByte_of_digit h
  all_goals decide

/-- A reference is of reserved and unreserved bytes and of triplets. -/
theorem Reference.Valid.encoded {reference : Reference} (h : reference.Valid) :
    Encoded isReferenceByte reference.text := by
  have hquery {text : List UInt8} (htext : Encoded isQueryByte text) :
      Encoded isReferenceByte text :=
    htext.mono fun byte hbyte => by simp [isReferenceByte, hbyte]
  have hscheme : Encoded isReferenceByte ((reference.scheme.map (· ++ [colon])).getD []) := by
    cases hvalue : reference.scheme with
    | none => exact .nil
    | some scheme => exact (h.scheme scheme hvalue).encoded.append (.byte (by decide) .nil)
  have hauthority :
      Encoded isReferenceByte ((reference.authority.map (slash :: slash :: ·)).getD []) := by
    cases hvalue : reference.authority with
    | none => exact .nil
    | some authority =>
        exact .byte (by decide) (.byte (by decide) (h.authority authority hvalue).encoded)
  have hpath : Encoded isReferenceByte reference.path :=
    hquery (h.path.mono fun byte hbyte => by simp [isQueryByte, hbyte])
  have hafterMark :
      Encoded isReferenceByte ((reference.query.map ((63 : UInt8) :: ·)).getD []) := by
    cases hvalue : reference.query with
    | none => exact .nil
    | some query => exact .byte (by decide) (hquery (h.query query hvalue))
  have hafterHash :
      Encoded isReferenceByte ((reference.fragment.map ((35 : UInt8) :: ·)).getD []) := by
    cases hvalue : reference.fragment with
    | none => exact .nil
    | some fragment => exact .byte (by decide) (hquery (h.fragment fragment hvalue))
  exact (hscheme.append hauthority).append (hpath.append (hafterMark.append hafterHash))

/-- A byte that is neither reserved nor unreserved stands in no reference. -/
theorem IsReference.not_mem {text : List UInt8} (h : IsReference text) {byte : UInt8}
    (hbyte : isReferenceByte byte = false) (hpercent : byte ≠ percent) : byte ∉ text := by
  obtain ⟨reference, hvalid, rfl⟩ := h
  have hencoded := hvalid.encoded
  generalize reference.text = text at hencoded
  induction hencoded with
  | nil => simp
  | byte hother _ ih =>
      rw [List.mem_cons, not_or]
      refine ⟨?_, ih⟩
      rintro rfl
      simp [hother] at hbyte
  | triplet hhigh hlow _ ih =>
      simp only [List.mem_cons, not_or]
      refine ⟨hpercent, ?_, ?_, ih⟩
      · rintro rfl
        simp [isReferenceByte_of_hex hhigh] at hbyte
      · rintro rfl
        simp [isReferenceByte_of_hex hlow] at hbyte

/-! ## References and what they stand for -/

/-- A reference is its own decoding when it has no triplet. -/
theorem IsReference.decode_eq_self_iff {text : List UInt8} (h : IsReference text) :
    percentDecode text = text ↔ percent ∉ text := by
  obtain ⟨reference, hvalid, rfl⟩ := h
  constructor
  · intro hself hmem
    have hlt := hvalid.encoded.length_decode_lt (by decide) hmem
    rw [hself] at hlt
    exact Nat.lt_irrefl _ hlt
  · exact percentDecode_of_not_mem

/-- The text is a reference by its path alone, and the path is as it stands. -/
structure IsPlainPath (text : List UInt8) : Prop where
  bytes : ∀ byte ∈ text, isPathByte byte = true
  unrooted : ¬ [slash, slash] <+: text
  relative : colon ∉ text.takeWhile (· ≠ slash)

/-- A reference whose path stands for the whole of its text has no other part. -/
theorem path_decodes_to_text_iff {text : List UInt8} :
    (∃ reference : Reference, reference.Valid ∧ reference.text = text ∧
      percentDecode reference.path = text) ↔ IsPlainPath text := by
  constructor
  · rintro ⟨⟨scheme, authority, path, query, fragment⟩, hvalid, htext, hpath⟩
    dsimp only at hpath
    have hlength := congrArg List.length htext
    have hle := length_percentDecode_le path
    rw [hpath] at hle
    simp only [Reference.text, List.length_append] at hlength
    have hscheme : scheme = none := by
      cases scheme with
      | none => rfl
      | some scheme =>
          simp only [Option.map_some, Option.getD_some, List.length_append,
            List.length_singleton] at hlength
          omega
    have hauthority : authority = none := by
      cases authority with
      | none => rfl
      | some authority =>
          simp only [Option.map_some, Option.getD_some, List.length_cons] at hlength
          omega
    have hsame : path = text := by
      have hquery : ((query.map ((63 : UInt8) :: ·)).getD []).length = 0 := by omega
      have hfragment : ((fragment.map ((35 : UInt8) :: ·)).getD []).length = 0 := by omega
      rw [← htext, Reference.text, hscheme, hauthority, List.eq_nil_of_length_eq_zero hquery,
        List.eq_nil_of_length_eq_zero hfragment]
      simp
    subst hsame
    have hplain : percent ∉ path := by
      intro hmem
      have hlt := hvalid.path.length_decode_lt (by decide) hmem
      rw [hpath] at hlt
      exact Nat.lt_irrefl _ hlt
    exact ⟨hvalid.path.forall_of_not_mem hplain, hvalid.unrooted hauthority,
      hvalid.relative hscheme hauthority⟩
  · intro h
    refine ⟨{ path := text }, ?_, by simp [Reference.text], ?_⟩
    · exact
        { scheme := by simp
          authority := by simp
          path := encoded_of_forall h.bytes
          query := by simp
          fragment := by simp
          rooted := by simp
          unrooted := fun _ => h.unrooted
          relative := fun _ _ => h.relative }
    · refine percentDecode_of_not_mem fun hmem => ?_
      exact absurd (h.bytes percent hmem) (by decide)

end Uri
