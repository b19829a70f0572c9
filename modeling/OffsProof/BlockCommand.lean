import OffsProof.CText

/-! # Block hashes on the command line

A block is addressed by a hash of 32 bytes.  `offs ephemeral list` prints it as 64 hex digits,
byte by byte with `%02x`, and `_hex_decode_hash` reads such a text back with `strtoul` on two
digits at a time; any other text stands for its own bytes.  `offs block delete` decodes its
argument and `offs block get` does not.

`strtoul` in base 16 reads more than two digits: white space, a sign and `0x` may come first.  In
a text of hex digits none of these can occur, and `0x` would need an `x`, so that two digits are
read as the number that they make (`strtoulHex_pair`).  A byte that is printed comes back, and
two digits that are read are printed again in lower case; byte by byte this gives the round trip
in both directions (`listed_hash_decoded`).

The two commands take the same text for different bytes just if it is decoded, that is, if it
looks like a hash as it is printed (`get_delete_same_hash_iff`).

The texts that `cmd_block` prints are left out.
-/
namespace Offs.Block
open CText

/-! ## Hexadecimal numbers -/

/-- A digit of base 16, in any letter case. -/
def hexDigit (c : Char) : Option Nat :=
  if '0' ≤ c ∧ c ≤ '9' then some (c.toNat - '0'.toNat)
  else if 'a' ≤ c ∧ c ≤ 'f' then some (c.toNat - 'a'.toNat + 10)
  else if 'A' ≤ c ∧ c ≤ 'F' then some (c.toNat - 'A'.toNat + 10)
  else none

/-- The number that the digits at the beginning make after the number `n`. -/
def hexDigits : Nat → Text → Nat
  | n, [] => n
  | n, c :: t =>
    match hexDigit c with
    | some k => hexDigits (n * 16 + k) t
    | none => n

/-- A `0x` that digits follow is skipped. -/
def skipMark : Text → Text
  | '0' :: x :: c :: t =>
    if (x = 'x' ∨ x = 'X') ∧ (hexDigit c).isSome then c :: t else '0' :: x :: c :: t
  | t => t

/-- `strtoul(t, NULL, 16)` -/
def strtoulHex (t : Text) : Nat :=
  let (negative, body) := sign (t.dropWhile isSpace)
  let n := hexDigits 0 (skipMark body)
  if n ≥ 2 ^ 64 then 2 ^ 64 - 1 else if negative then (2 ^ 64 - n) % 2 ^ 64 else n

/-- A digit as `%x` prints it. -/
def hexChar (n : Nat) : Char :=
  if n < 10 then Char.ofNat ('0'.toNat + n) else Char.ofNat ('a'.toNat + (n - 10))

/-- `%02x` of a byte. -/
def hexByte (b : UInt8) : Text := [hexChar (b.toNat / 16), hexChar (b.toNat % 16)]

/-! ## Hashes -/

/-- The text of `_ephemeral_list` for a hash. -/
def hashText (hash : List UInt8) : Text := hash.flatMap hexByte

/-- The bytes of a string. -/
def rawBytes (text : Text) : List UInt8 := text.map fun c => UInt8.ofNat c.toNat

/-- The loop of `_hex_decode_hash` over the bytes. -/
def decodePairs : Text → List UInt8
  | high :: low :: rest => UInt8.ofNat (strtoulHex [high, low]) :: decodePairs rest
  | _ => []

/-- `_hex_decode_hash`, `none` for 0; `allocates` is whether `malloc` succeeds. -/
def hexDecodeHash (allocates : Bool) (text : Text) : Option (List UInt8) :=
  if text.length ≠ 64 then none
  else if text.all (fun c => (hexDigit c).isSome) = false then none
  else if !allocates then none
  else some (decodePairs text)

/-- **A hash as it is printed**: 64 hex digits, in any letter case.  This is just what
`_hex_decode_hash` asks of a text before it decodes it. -/
structure IsHexHash (text : Text) : Prop where
  length : text.length = 64
  digits : ∀ c ∈ text, (hexDigit c).isSome

/-! ## The requests of `offs block` -/

/-- What `cmd_block` sends. -/
inductive BlockRequest
  | put (data : List UInt8) (base58 : Bool)
  | get (hash : List UInt8)
  | delete (hash : List UInt8) (force : Bool)
  deriving DecidableEq, Repr

/-- The loop over the options of `put`. -/
def putEncoding (base58 : Bool) : List Text → Bool
  | option :: value :: rest =>
    if option = lit "--encoding" then putEncoding (base58 || value == lit "base58") rest
    else putEncoding base58 (value :: rest)
  | _ => base58

/-- The hash of a delete request. -/
def deleteHash (allocates : Bool) (text : Text) : List UInt8 :=
  (hexDecodeHash allocates text).getD (rawBytes text)

/-- The request of `cmd_block`, `none` where it prints its usage. -/
def blockRequest (allocates : Bool) : List Text → Option BlockRequest
  | subcommand :: text :: options =>
    if subcommand = lit "put" then some (.put (rawBytes text) (putEncoding false options))
    else if subcommand = lit "get" then some (.get (rawBytes text))
    else if subcommand = lit "delete" then
      if options.all (· = lit "--force") then
        some (.delete (deleteHash allocates text) (!options.isEmpty))
      else none
    else none
  | _ => none

/-! ## Digits there and back -/

theorem hexDigit_hexChar : ∀ n < 16, hexDigit (hexChar n) = some n := by decide

theorem hexDigit_lt_128 {c : Char} (h : (hexDigit c).isSome) : c.toNat < 128 := by
  have hle : ∀ d : Char, d.toNat < 128 → c ≤ d → c.toNat < 128 := fun d hd hc =>
    Nat.lt_of_le_of_lt hc hd
  rw [hexDigit] at h
  split at h
  · rename_i hc
    exact hle '9' (by decide) hc.2
  · split at h
    · rename_i hc
      exact hle 'f' (by decide) hc.2
    · split at h
      · rename_i hc
        exact hle 'F' (by decide) hc.2
      · cases h

/-- The digits, looked at one by one: they are printed again in lower case, and none of them
is white space or a sign. -/
theorem hexDigit_table : ∀ k < 128, ∀ n ∈ hexDigit (Char.ofNat k),
    (n < 16 ∧ hexChar n = (Char.ofNat k).toLower) ∧
      isSpace (Char.ofNat k) = false ∧ Char.ofNat k ≠ '-' ∧ Char.ofNat k ≠ '+' := by decide

theorem hexDigit_cases {c : Char} {n : Nat} (h : hexDigit c = some n) :
    (n < 16 ∧ hexChar n = c.toLower) ∧ isSpace c = false ∧ c ≠ '-' ∧ c ≠ '+' := by
  have hlt : c.toNat < 128 := hexDigit_lt_128 (by rw [h]; rfl)
  have htable := hexDigit_table c.toNat hlt n
  rw [Char.ofNat_toNat] at htable
  exact htable h

/-- Two digits are read as a number below 256. -/
theorem strtoulHex_pair {high low : Char} {m n : Nat} (hhigh : hexDigit high = some m)
    (hlow : hexDigit low = some n) : strtoulHex [high, low] = m * 16 + n := by
  obtain ⟨⟨hm, -⟩, hspace, hminus, hplus⟩ := hexDigit_cases hhigh
  obtain ⟨⟨hn, -⟩, -, -, -⟩ := hexDigit_cases hlow
  have hbody : [high, low].dropWhile isSpace = [high, low] :=
    List.dropWhile_cons_of_neg (by simp [hspace])
  have hsign : sign [high, low] = (false, [high, low]) := by simp [sign, hminus, hplus]
  have hmark : skipMark [high, low] = [high, low] := by simp [skipMark]
  have hnumber : hexDigits 0 [high, low] = m * 16 + n := by simp [hexDigits, hhigh, hlow]
  rw [strtoulHex, hbody, hsign]
  dsimp only
  rw [hmark, hnumber, if_neg (by omega)]
  rfl

theorem hexByte_digits (b : UInt8) : ∀ c ∈ hexByte b, (hexDigit c).isSome := by
  have hb := b.toNat_lt
  intro c hc
  simp only [hexByte, List.mem_cons, List.not_mem_nil, or_false] at hc
  rcases hc with rfl | rfl
  · rw [hexDigit_hexChar _ (by omega)]
    rfl
  · rw [hexDigit_hexChar _ (by omega)]
    rfl

/-- A byte comes back. -/
theorem strtoulHex_hexByte (b : UInt8) : UInt8.ofNat (strtoulHex (hexByte b)) = b := by
  have hb := b.toNat_lt
  rw [hexByte, strtoulHex_pair (hexDigit_hexChar _ (by omega)) (hexDigit_hexChar _ (by omega)),
    Nat.div_add_mod', UInt8.ofNat_toNat]

/-- Two digits are printed again in lower case. -/
theorem hexByte_strtoulHex {high low : Char} (hhigh : (hexDigit high).isSome)
    (hlow : (hexDigit low).isSome) :
    hexByte (UInt8.ofNat (strtoulHex [high, low])) = [high.toLower, low.toLower] := by
  obtain ⟨m, hm⟩ := Option.isSome_iff_exists.mp hhigh
  obtain ⟨n, hn⟩ := Option.isSome_iff_exists.mp hlow
  obtain ⟨⟨hm16, hmchar⟩, -⟩ := hexDigit_cases hm
  obtain ⟨⟨hn16, hnchar⟩, -⟩ := hexDigit_cases hn
  have hbyte : (UInt8.ofNat (m * 16 + n)).toNat = m * 16 + n := by
    rw [UInt8.toNat_ofNat']
    omega
  have hdiv : (m * 16 + n) / 16 = m := by omega
  have hmod : (m * 16 + n) % 16 = n := by omega
  rw [strtoulHex_pair hm hn, hexByte, hbyte, hdiv, hmod, hmchar, hnchar]

/-! ## Hashes there and back -/

theorem length_hashText (hash : List UInt8) : (hashText hash).length = 2 * hash.length := by
  induction hash with
  | nil => rfl
  | cons b hash ih =>
    rw [hashText, List.flatMap_cons, List.length_append, List.length_cons]
    rw [hashText] at ih
    rw [ih, hexByte]
    simp only [List.length_cons, List.length_nil]
    omega

theorem decodePairs_hashText (hash : List UInt8) : decodePairs (hashText hash) = hash := by
  induction hash with
  | nil => rfl
  | cons b hash ih =>
    have hcons : decodePairs (hashText (b :: hash)) =
        UInt8.ofNat (strtoulHex (hexByte b)) :: decodePairs (hashText hash) := rfl
    rw [hcons, strtoulHex_hexByte, ih]

theorem isHexHash_hashText {hash : List UInt8} (h : hash.length = 32) :
    IsHexHash (hashText hash) := by
  refine ⟨by rw [length_hashText, h], fun c hc => ?_⟩
  obtain ⟨b, -, hb⟩ := List.mem_flatMap.mp hc
  exact hexByte_digits b c hb

theorem hashText_decodePairs {text : Text} (heven : text.length % 2 = 0)
    (hdigits : ∀ c ∈ text, (hexDigit c).isSome) :
    hashText (decodePairs text) = text.map Char.toLower := by
  induction text using decodePairs.induct with
  | case1 high low rest ih =>
    have hhigh := hdigits high List.mem_cons_self
    have hlow := hdigits low (List.mem_cons_of_mem _ List.mem_cons_self)
    have heven' : rest.length % 2 = 0 := by
      simp only [List.length_cons] at heven
      omega
    have hrest := ih heven' fun c hc =>
      hdigits c (List.mem_cons_of_mem _ (List.mem_cons_of_mem _ hc))
    rw [decodePairs, hashText, List.flatMap_cons, hexByte_strtoulHex hhigh hlow]
    rw [hashText] at hrest
    rw [hrest]
    rfl
  | case2 text hshort =>
    rcases text with _ | ⟨c, _ | ⟨d, rest⟩⟩
    · rfl
    · simp at heven
    · exact absurd rfl (hshort c d rest)

theorem hexDecodeHash_of_hash {text : Text} (h : IsHexHash text) :
    hexDecodeHash true text = some (decodePairs text) := by
  have hall : text.all (fun c => (hexDigit c).isSome) = true := List.all_eq_true.mpr h.digits
  rw [hexDecodeHash, if_neg (not_not.mpr h.length), if_neg (by rw [hall]; decide)]
  rfl

theorem hexDecodeHash_of_not {allocates : Bool} {text : Text}
    (h : ¬(allocates = true ∧ IsHexHash text)) : hexDecodeHash allocates text = none := by
  rw [hexDecodeHash]
  split
  · rfl
  · rename_i hlength
    split
    · rfl
    · rename_i hall
      have hhash : IsHexHash text :=
        ⟨not_not.mp hlength, List.all_eq_true.mp (Bool.not_eq_false _ ▸ hall)⟩
      have hfails : allocates = false := Bool.not_eq_true _ ▸ fun hok => h ⟨hok, hhash⟩
      rw [hfails]
      rfl

theorem IsHexHash.hashText_decodePairs {text : Text} (h : IsHexHash text) :
    hashText (decodePairs text) = text.map Char.toLower :=
  Block.hashText_decodePairs (by rw [h.length]) h.digits

theorem IsHexHash.length_decodePairs {text : Text} (h : IsHexHash text) :
    (decodePairs text).length = 32 := by
  have hlength := congrArg List.length h.hashText_decodePairs
  rw [length_hashText, List.length_map, h.length] at hlength
  omega

/-- **A hash that is listed can be given back.**  Its text is decoded to it, every text of 64
digits is that of a hash in some letter case, and any other text is sent as it is.  Digits are
decoded in pairs, and a pair of digits and a byte go over into each other (`strtoulHex_hexByte`
and `hexByte_strtoulHex`) but for the letter case, which decoding does not see. -/
theorem listed_hash_decoded :
    (∀ hash : List UInt8, hash.length = 32 →
      (hashText hash).length = 64 ∧ hexDecodeHash true (hashText hash) = some hash) ∧
    (∀ text, IsHexHash text → ∃ hash, hexDecodeHash true text = some hash ∧
      hash.length = 32 ∧ hashText hash = text.map Char.toLower) ∧
    (∀ allocates text, ¬IsHexHash text → hexDecodeHash allocates text = none ∧
      ∀ options, options.all (· = lit "--force") = true →
        blockRequest allocates (lit "delete" :: text :: options) =
          some (.delete (rawBytes text) (!options.isEmpty))) := by
  refine ⟨?_, ?_, ?_⟩
  · intro hash hlength
    refine ⟨by rw [length_hashText, hlength], ?_⟩
    rw [hexDecodeHash_of_hash (isHexHash_hashText hlength), decodePairs_hashText]
  · intro text htext
    exact ⟨decodePairs text, hexDecodeHash_of_hash htext, htext.length_decodePairs,
      htext.hashText_decodePairs⟩
  · intro allocates text htext
    have hnone : hexDecodeHash allocates text = none := hexDecodeHash_of_not fun h => htext h.2
    refine ⟨hnone, fun options hoptions => ?_⟩
    rw [blockRequest, if_neg (by decide), if_neg (by decide), if_pos rfl, if_pos hoptions,
      deleteHash, hnone]
    rfl

/-- 32 zero bytes. -/
theorem listed_hash_decoded_zero :
    hashText (List.replicate 32 0) = List.replicate 64 '0' ∧
    hexDecodeHash true (hashText (List.replicate 32 0)) = some (List.replicate 32 0) :=
  ⟨by decide, (listed_hash_decoded.1 (List.replicate 32 0) rfl).2⟩

/-! ## `get` and `delete` -/

/-- The hash in a request. -/
def BlockRequest.hash : BlockRequest → Option (List UInt8)
  | .put _ _ => none
  | .get hash => some hash
  | .delete hash _ => some hash

/-- **`get` and `delete` mean the same block just if the text is no hash as it is printed**, or if
there is no memory to decode it.  `get` sends the bytes of the text whatever it is, and `delete`
decodes it first; a text of 64 digits has 64 bytes and is decoded to 32, so that the two cannot be
the same. -/
theorem get_delete_same_hash_iff (allocates : Bool) (text : Text) :
    ((blockRequest allocates [lit "get", text]).bind BlockRequest.hash =
      (blockRequest allocates [lit "delete", text]).bind BlockRequest.hash) ↔
      ¬(allocates = true ∧ IsHexHash text) := by
  have hget : (blockRequest allocates [lit "get", text]).bind BlockRequest.hash =
      some (rawBytes text) := rfl
  have hdelete : (blockRequest allocates [lit "delete", text]).bind BlockRequest.hash =
      some (deleteHash allocates text) := rfl
  rw [hget, hdelete, Option.some.injEq]
  constructor
  · rintro hsame ⟨rfl, htext⟩
    -- One of the two has 64 bytes, the other one 32.
    have hbytes := congrArg List.length hsame
    rw [deleteHash, hexDecodeHash_of_hash htext, Option.getD_some, htext.length_decodePairs,
      rawBytes, List.length_map, htext.length] at hbytes
    exact absurd hbytes (by decide)
  · intro h
    rw [deleteHash, hexDecodeHash_of_not h]
    rfl

/-- **`get` does not find what `delete` deletes**: the hash of 32 zero bytes. -/
theorem zero_hash_differs :
    IsHexHash (List.replicate 64 '0') ∧
    blockRequest true [lit "get", List.replicate 64 '0'] = some (.get (List.replicate 64 48)) ∧
    blockRequest true [lit "delete", List.replicate 64 '0'] =
      some (.delete (List.replicate 32 0) false) ∧
    List.replicate 64 (48 : UInt8) ≠ List.replicate 32 0 := by
  refine ⟨⟨rfl, fun c hc => ?_⟩, by decide, by decide, by decide⟩
  rw [List.eq_of_mem_replicate hc]
  rfl

end Offs.Block
