import StellarSave.UnitsProofs
import StellarSave.CrcProofs

/-! # Addresses — what the validator decodes, and what the key format writes

    A public key is written as a version byte, its bytes and a check of both, low
    byte first, in base 32.  The validator turns the symbols into a row of digits,
    cuts it into bytes and computes the check again; it reads the two check bytes
    high byte first. -/

namespace SaveStrKey

open Units Base Crc

/-- The symbols of base 32. -/
def base32Alphabet : JsString := lit "ABCDEFGHIJKLMNOPQRSTUVWXYZ234567"

/-! ## The validator -/

/-- One round of the inner loop. -/
def crc16Round (crc : Nat) : Nat :=
  (if crc &&& 0x8000 ≠ 0 then (crc <<< 1) ^^^ 0x1021 else crc <<< 1) &&& 0xffff

/-- `crc16`: each byte at the top, then eight rounds. -/
def crc16 (data : List UInt8) : Nat :=
  data.foldl (fun crc byte => crc16Round^[8] (crc ^^^ (byte.toNat <<< 8))) 0

/-- `toString(2)` and `padStart`. -/
def binaryDigits (value width : Nat) : JsString :=
  ((Nat.toDigits 2 value).map unit).leftpad width (unit '0')

/-- `parseInt(_, 2)`: the digits as far as they go. -/
def parseBinary (digits : JsString) : Nat :=
  (digits.takeWhile fun u => u = unit '0' ∨ u = unit '1').foldl
    (fun n u => 2 * n + (u - unit '0').toNat) 0

/-- The loop over the symbols: their digits, unless one of them is none. -/
def base32Bits (bits : JsString) : JsString → Option JsString
  | [] => some bits
  | c :: input =>
      match base32Alphabet.idxOf? c with
      | none => none
      | some value => base32Bits (bits ++ binaryDigits value 5) input

def base32Decode (input : JsString) : Option (List UInt8) :=
  if input.length ≠ 56 ∨ ¬ (lit "G").isPrefixOf input then none
  else
    match base32Bits [] input with
    | none => none
    | some bits =>
        if bits.length ≠ 280 then none
        else some ((List.range 35).map fun i => UInt8.ofNat (parseBinary ((bits.drop (i * 8)).take 8)))

structure ValidateAddressResult where
  valid : Bool
  error : Option String
deriving DecidableEq

def validateAddress (address : JsString) : ValidateAddressResult :=
  let trimmed := trim address
  if trimmed.length ≠ 56 ∨ ¬ (lit "G").isPrefixOf trimmed then
    ⟨false, some "Must be 56 chars starting with G"⟩
  else
    match base32Decode trimmed with
    | none => ⟨false, some "Invalid base32 characters"⟩
    | some bytes =>
        if (bytes.getD 0 0).toNat ≠ 6 <<< 3 then ⟨false, some "Invalid version byte"⟩
        else
          let expectedCrc := crc16 (bytes.take 33)
          let actualCrc := ((bytes.getD 33 0).toNat <<< 8) ||| (bytes.getD 34 0).toNat
          if expectedCrc ≠ actualCrc then ⟨false, some "Checksum mismatch"⟩ else ⟨true, none⟩

/-! ## The format -/

/-- A public key. -/
@[ext] structure Key where
  bytes : List UInt8
  length : bytes.length = 32

/-- The bits of some bytes. -/
def bitsOf (data : List UInt8) : List Bool := (data.map UInt8.toNat).flatMap (toBits 8)

/-- CRC16-XMODEM: width sixteen, generator `X ^ 16 + X ^ 12 + X ^ 5 + 1`, nothing to
    begin with and nothing turned round. -/
def crcXmodem (data : List UInt8) : BitVec 16 := remainder 0x1021#16 (bitsOf data)

/-- The bytes the check of a key is taken of. -/
def Key.payload (k : Key) : List UInt8 := 48 :: k.bytes

def Key.checkLow (k : Key) : UInt8 := UInt8.ofNat ((crcXmodem k.payload).toNat % 256)

def Key.checkHigh (k : Key) : UInt8 := UInt8.ofNat ((crcXmodem k.payload).toNat / 256)

/-- The symbol of five bits. -/
def symbol (v : Nat) : UInt16 := base32Alphabet.getD v 0

/-- Thirty-five bytes in base 32. -/
def base32Encode (bytes : List UInt8) : JsString := (groups 5 56 (bitsOf bytes)).map symbol

/-- The key as it is written: the check low byte first. -/
def strKey (k : Key) : JsString := base32Encode (k.payload ++ [k.checkLow, k.checkHigh])

/-! ## The check -/

section Check

variable {data : List UInt8} {byte : UInt8}

/-- Bits follow the bytes they are of. -/
theorem bitsOf_append (data other : List UInt8) : bitsOf (data ++ other) = bitsOf data ++ bitsOf other := by
  rw [bitsOf, List.map_append, List.flatMap_append]
  rfl

open Polynomial in
/-- The generator written out. -/
theorem generator_xmodem : generator 0x1021#16 = X ^ 16 + (X ^ 12 + X ^ 5 + 1) := by
  have hbits : ∀ i < 16, (0x1021#16).getLsbD i = decide (i = 12 ∨ i = 5 ∨ i = 0) := by decide
  have hpoly : poly 0x1021#16 = X ^ 12 + X ^ 5 + 1 := by
    ext i
    rw [coeff_poly, coeff_add, coeff_add, coeff_X_pow, coeff_X_pow, coeff_one]
    by_cases hi : i < 16
    · rw [hbits i hi]
      rcases Decidable.em (i = 12) with rfl | h12
      · decide
      · rcases Decidable.em (i = 5) with rfl | h5
        · decide
        · simp [h12, h5]
    · have hset : ¬ i = 12 ∧ ¬ i = 5 ∧ ¬ i = 0 := by omega
      rw [BitVec.getLsbD_of_ge _ i (Nat.le_of_not_lt hi)]
      simp [hset]
  rw [generator, hpoly]

open Polynomial in
/-- The check is a remainder: of the bits of the data, moved up by sixteen. -/
theorem poly_crcXmodem (data : List UInt8) :
    poly (crcXmodem data) =
      (message (bitsOf data) * X ^ 16) %ₘ (X ^ 16 + (X ^ 12 + X ^ 5 + 1)) := by
  rw [← generator_xmodem]
  exact poly_remainder (by decide) 0x1021#16 (bitsOf data)

/-- One round is one shift of the register. -/
theorem crc16Round_toNat (r : BitVec 16) : crc16Round r.toNat = (shift 0x1021#16 r).toNat := by
  have hmask : ∀ n : Nat, n &&& 0xffff = n % 2 ^ 16 := fun n => Nat.and_two_pow_sub_one_eq_mod n 16
  have htop : (r.toNat &&& 0x8000 ≠ 0) ↔ r.msb = true := by
    have hand : r.toNat &&& 0x8000 = (r.toNat.testBit 15).toNat * 2 ^ 15 := Nat.and_two_pow r.toNat 15
    have hmsb : r.msb = r.toNat.testBit 15 := BitVec.msb_eq_getLsbD_last r
    rw [hand, hmsb]
    cases r.toNat.testBit 15 with
    | false => decide
    | true => decide
  have hxor : ((r.toNat <<< 1) ^^^ 0x1021) % 2 ^ 16 = ((r <<< 1) ^^^ 0x1021#16).toNat := by
    rw [BitVec.toNat_xor, BitVec.toNat_shiftLeft, Nat.xor_mod_two_pow]
    rfl
  rw [crc16Round, shift, step, hmask]
  by_cases hmsb : r.msb = true
  · rw [if_pos (htop.mpr hmsb), hmsb, hxor]
    rfl
  · have hclear : r.msb = false := Bool.eq_false_iff.mpr hmsb
    rw [if_neg (hmsb ∘ htop.mp), hclear]
    show _ = (r <<< 1).toNat
    rw [BitVec.toNat_shiftLeft]

/-- The rounds of the checksum are shifts of the register. -/
theorem crc16Round_iterate (n : Nat) (r : BitVec 16) :
    crc16Round^[n] r.toNat = ((shift 0x1021#16)^[n] r).toNat := by
  induction n generalizing r with
  | zero => rfl
  | succ n ih => rw [Function.iterate_succ_apply, Function.iterate_succ_apply, crc16Round_toNat, ih]

/-- A byte enters at the top. -/
theorem xor_byte (r : BitVec 16) (byte : UInt8) :
    r.toNat ^^^ (byte.toNat <<< 8) = (r ^^^ place 16 (toBits 8 byte.toNat)).toNat := by
  have hlt : byte.toNat < 2 ^ 8 := byte.toNat_lt
  have hbyte : (byte.toNat <<< 8) % 2 ^ 16 = byte.toNat <<< 8 := by
    rw [Nat.shiftLeft_eq]
    exact Nat.mod_eq_of_lt (by omega)
  have hsmall : byte.toNat % 2 ^ 16 = byte.toNat := Nat.mod_eq_of_lt (by omega)
  rw [BitVec.toNat_xor, place, length_toBits, ofBits_toBits_of_lt hlt, BitVec.toNat_shiftLeft,
    BitVec.toNat_ofNat, hsmall, hbyte]

/-- **THE LOOPS COMPUTE THE CHECK**, by induction along the data from its end. -/
theorem crc16_eq (data : List UInt8) : crc16 data = (crcXmodem data).toNat := by
  induction data using List.reverseRecOn with
  | nil => rfl
  | append_singleton data byte ih =>
      have hlength : (toBits 8 byte.toNat).length ≤ 16 := by
        rw [length_toBits]
        decide
      have hplace := shifts_place 0x1021#16 (crcXmodem data) hlength
      rw [length_toBits] at hplace
      have hcrc : crc16 (data ++ [byte]) = crc16Round^[8] (crc16 data ^^^ (byte.toNat <<< 8)) := by
        rw [crc16, List.foldl_append]
        rfl
      have hspec : crcXmodem (data ++ [byte]) =
          (toBits 8 byte.toNat).foldl (step 0x1021#16) (crcXmodem data) := by
        rw [crcXmodem, bitsOf_append, remainder, List.foldl_append]
        have hbyte : bitsOf [byte] = toBits 8 byte.toNat := by
          rw [bitsOf, List.map_singleton, List.flatMap_singleton]
        rw [hbyte]
        rfl
      rw [hcrc, hspec, ih, xor_byte, crc16Round_iterate, hplace]

end Check

/-! ## The alphabet -/

section Alphabet

variable {c : UInt16} {v : Nat} {values : List Nat} {bits : List Bool} {acc digits input : JsString}

/-- A bit as it is written. -/
def digit (b : Bool) : UInt16 := if b = true then unit '1' else unit '0'

/-- A symbol is found at its value. -/
theorem idxOf_symbol (h : v < 32) : base32Alphabet.idxOf? (symbol v) = some v := by
  have hall : ∀ v < 32, base32Alphabet.idxOf? (symbol v) = some v := by decide
  exact hall v h

/-- What is found is one of the thirty-two. -/
theorem symbol_of_idxOf (h : base32Alphabet.idxOf? c = some v) : v < 32 ∧ symbol v = c := by
  obtain ⟨hlt, heq, -⟩ := List.findIdx?_eq_some_iff_getElem.mp h
  have hget : base32Alphabet.getD v 0 = base32Alphabet[v] := by
    rw [List.getD_eq_getElem?_getD, List.getElem?_eq_getElem hlt, Option.getD_some]
  exact ⟨hlt, hget.trans (eq_of_beq heq)⟩

/-- No symbol is white space. -/
theorem symbol_not_space (h : v < 32) : isSpace (symbol v) = false := by
  have hall : ∀ v < 32, isSpace (symbol v) = false := by decide
  exact hall v h

/-- The digits a value is padded to are its five bits. -/
theorem binaryDigits_eq (h : v < 32) : binaryDigits v 5 = (toBits 5 v).map digit := by
  have hall : ∀ v < 32, binaryDigits v 5 = (toBits 5 v).map digit := by decide
  exact hall v h

/-- The digits read back. -/
theorem parseBinary_map (bits : List Bool) : parseBinary (bits.map digit) = ofBits bits := by
  have hdigits : ∀ u ∈ bits.map digit, u = unit '0' ∨ u = unit '1' := by
    intro u hu
    obtain ⟨b, -, rfl⟩ := List.mem_map.mp hu
    cases b with
    | false => exact .inl rfl
    | true => exact .inr rfl
  have hvalue : ∀ (n : Nat) (b : Bool), 2 * n + (digit b - unit '0').toNat = 2 * n + b.toNat := by
    intro n b
    cases b with
    | false => rfl
    | true => rfl
  have htake : (bits.map digit).takeWhile (fun u => u = unit '0' ∨ u = unit '1') = bits.map digit :=
    List.takeWhile_eq_self_iff.mpr fun u hu => decide_eq_true (hdigits u hu)
  have hfold := foldl_eq_ofBits bits 0
  rw [Nat.zero_mul, Nat.zero_add] at hfold
  rw [parseBinary, htake, List.foldl_map, ← hfold]
  exact congrArg (fun f => bits.foldl f 0) (funext fun n => funext fun b => hvalue n b)

/-- **THE ROW OF DIGITS**: the loop gets to its end exactly on symbols of the alphabet,
    and has then written their bits.  By induction along the input. -/
theorem base32Bits_eq_some_iff :
    base32Bits acc input = some digits ↔
      ∃ values : List Nat, input = values.map symbol ∧ (∀ v ∈ values, v < 32) ∧
        digits = acc ++ (values.flatMap (toBits 5)).map digit := by
  -- five digits for each symbol, and no symbol twice in the alphabet
  induction input generalizing acc with
  | nil =>
      constructor
      · intro h
        obtain rfl := Option.some.inj h
        exact ⟨[], rfl, fun v hv => (List.not_mem_nil hv).elim, (List.append_nil acc).symm⟩
      · rintro ⟨values, hinput, -, rfl⟩
        obtain rfl := List.map_eq_nil_iff.mp hinput.symm
        rw [List.flatMap_nil, List.map_nil, List.append_nil]
        rfl
  | cons c input ih =>
      rw [base32Bits]
      constructor
      · intro h
        cases hc : base32Alphabet.idxOf? c with
        | none =>
            rw [hc] at h
            cases h
        | some v =>
            rw [hc] at h
            obtain ⟨hlt, rfl⟩ := symbol_of_idxOf hc
            obtain ⟨values, rfl, hvalues, rfl⟩ := ih.mp h
            refine ⟨v :: values, rfl, List.forall_mem_cons.mpr ⟨hlt, hvalues⟩, ?_⟩
            rw [binaryDigits_eq hlt, List.flatMap_cons, List.map_append, List.append_assoc]
      · rintro ⟨values, hinput, hvalues, rfl⟩
        cases values with
        | nil => cases hinput
        | cons v values =>
            obtain ⟨rfl, rfl⟩ := List.cons.inj hinput
            obtain ⟨hlt, hrest⟩ := List.forall_mem_cons.mp hvalues
            rw [idxOf_symbol hlt]
            refine ih.mpr ⟨values, rfl, hrest, ?_⟩
            rw [binaryDigits_eq hlt, List.flatMap_cons, List.map_append, List.append_assoc]

end Alphabet

/-! ## Decoding -/

section Decode

variable {bytes : List UInt8} {values : List Nat} {input : JsString}

/-- Eight bits a byte. -/
theorem length_bitsOf (bytes : List UInt8) : (bitsOf bytes).length = bytes.length * 8 := by
  rw [bitsOf, length_flatMap_toBits, List.length_map]

/-- Bytes are numbers that eight bits write. -/
theorem ofNat_groups (bytes : List UInt8) :
    (groups 8 bytes.length (bitsOf bytes)).map UInt8.ofNat = bytes := by
  have hlt : ∀ v ∈ bytes.map UInt8.toNat, v < 2 ^ 8 := by
    intro v hv
    obtain ⟨byte, -, rfl⟩ := List.mem_map.mp hv
    exact byte.toNat_lt
  have hgroups := groups_flatMap hlt
  rw [List.length_map] at hgroups
  rw [bitsOf, hgroups, List.map_map]
  exact (List.map_congr_left fun byte _ => UInt8.ofNat_toNat).trans (List.map_id bytes)

/-- Bits put into bytes are the bits of these bytes. -/
theorem bitsOf_ofNat_groups {bits : List Bool} {count : Nat} (h : bits.length = count * 8) :
    bitsOf ((groups 8 count bits).map UInt8.ofNat) = bits := by
  have hback : ((groups 8 count bits).map UInt8.ofNat).map UInt8.toNat = groups 8 count bits := by
    rw [List.map_map]
    refine (List.map_congr_left fun v hv => ?_).trans (List.map_id _)
    exact UInt8.toNat_ofNat_of_lt' (mem_groups_lt hv)
  rw [bitsOf, hback, flatMap_groups h]

/-- The bytes are cut out of the digits. -/
theorem cut_digits (bits : List Bool) (count : Nat) :
    ((List.range count).map fun i => UInt8.ofNat (parseBinary (((bits.map digit).drop (i * 8)).take 8))) =
      (groups 8 count bits).map UInt8.ofNat := by
  rw [groups_eq_map, List.map_map]
  refine List.map_congr_left fun i _ => ?_
  rw [← List.map_drop, ← List.map_take, parseBinary_map]
  rfl

/-- Thirty-five bytes are fifty-six symbols. -/
theorem length_base32Encode (bytes : List UInt8) : (base32Encode bytes).length = 56 := by
  rw [base32Encode, List.length_map, length_groups]

/-- **DECODING**: what is decoded is what the format writes so. -/
theorem base32Decode_eq_some_iff :
    base32Decode input = some bytes ↔
      bytes.length = 35 ∧ (lit "G").isPrefixOf input = true ∧ base32Encode bytes = input := by
  constructor
  -- an accepted string is the encoding of what was read from it
  · intro h
    rw [base32Decode] at h
    split at h
    · cases h
    · next hshape =>
        rw [not_or, not_not, not_not] at hshape
        cases hbits : base32Bits [] input with
        | none =>
            rw [hbits] at h
            cases h
        | some digits =>
            obtain ⟨values, rfl, hvalues, rfl⟩ := base32Bits_eq_some_iff.mp hbits
            rw [List.length_map] at hshape
            have hlength : (values.flatMap (toBits 5)).length = 280 := by
              rw [length_flatMap_toBits, hshape.1]
            rw [hbits, List.nil_append] at h
            have hcount : ¬ ((values.flatMap (toBits 5)).map digit).length ≠ 280 := by
              rw [not_not, List.length_map, hlength]
            have h' : (if ((values.flatMap (toBits 5)).map digit).length ≠ 280 then none else _) =
                some bytes := h
            rw [if_neg hcount, cut_digits] at h'
            obtain rfl := Option.some.inj h'
            refine ⟨by rw [List.length_map, length_groups], hshape.2, ?_⟩
            have hgroups := groups_flatMap (w := 5) hvalues
            rw [hshape.1] at hgroups
            rw [base32Encode, bitsOf_ofNat_groups hlength, hgroups]
  -- and the other way: fifty-six symbols are two hundred and eighty bits
  · rintro ⟨hlength, hprefix, rfl⟩
    have hbitsLength : (bitsOf bytes).length = 280 := by rw [length_bitsOf, hlength]
    have hbits : base32Bits [] (base32Encode bytes) = some ((bitsOf bytes).map digit) := by
      refine base32Bits_eq_some_iff.mpr ⟨groups 5 56 (bitsOf bytes), rfl, fun v hv => mem_groups_lt hv, ?_⟩
      rw [flatMap_groups hbitsLength, List.nil_append]
    have hshape : ¬ ((base32Encode bytes).length ≠ 56 ∨
        ¬ (lit "G").isPrefixOf (base32Encode bytes) = true) := by
      rw [not_or, not_not, not_not]
      exact ⟨length_base32Encode bytes, hprefix⟩
    have hcount : ¬ ((bitsOf bytes).map digit).length ≠ 280 := by
      rw [not_not, List.length_map, hbitsLength]
    have hback := ofNat_groups bytes
    rw [hlength] at hback
    rw [base32Decode, if_neg hshape, hbits]
    show (if ((bitsOf bytes).map digit).length ≠ 280 then none else _) = _
    rw [if_neg hcount, cut_digits, hback]

end Decode

/-! ## The verdict -/

/-- A key with some two bytes in the place of its check. -/
def Key.withCheck (k : Key) (first second : UInt8) : List UInt8 := k.payload ++ [first, second]

section Verdict

variable {address : JsString} {bytes : List UInt8} {k k' : Key} {first second : UInt8}

/-- Version, key and checksum are thirty-five bytes. -/
theorem Key.length_withCheck (k : Key) (first second : UInt8) :
    (k.withCheck first second).length = 35 := by
  rw [Key.withCheck, Key.payload, List.length_append, List.length_cons, k.length]
  rfl

/-- The parts of a key and its check. -/
theorem Key.withCheck_parts (k : Key) (first second : UInt8) :
    (k.withCheck first second).getD 0 0 = 48 ∧ (k.withCheck first second).take 33 = k.payload ∧
      (k.withCheck first second).getD 33 0 = first ∧ (k.withCheck first second).getD 34 0 = second := by
  have hlength : k.payload.length = 33 := by rw [Key.payload, List.length_cons, k.length]
  refine ⟨rfl, List.take_left' hlength, ?_, ?_⟩
  · rw [Key.withCheck, List.getD_append_right _ _ _ _ (Nat.le_of_eq hlength), hlength]
    rfl
  · rw [Key.withCheck, List.getD_append_right _ _ _ _ (by omega), hlength]
    rfl

/-- Thirty-five bytes that begin with the version are a key and two more. -/
theorem exists_withCheck (hlength : bytes.length = 35) (hversion : bytes.getD 0 0 = 48) :
    ∃ k : Key, ∃ first second, bytes = k.withCheck first second := by
  cases bytes with
  | nil => cases hlength
  | cons version rest =>
      rw [List.length_cons] at hlength
      have hrest : rest.length = 34 := by omega
      have htail : (rest.drop 32).length = 2 := by rw [List.length_drop, hrest]
      obtain ⟨first, second, hcheck⟩ := List.length_eq_two.mp htail
      refine ⟨⟨rest.take 32, by rw [List.length_take, hrest]; rfl⟩, first, second, ?_⟩
      have hsplit := List.take_append_drop 32 rest
      rw [hcheck] at hsplit
      have hversion' : version = 48 := hversion
      rw [Key.withCheck, Key.payload, List.cons_append, hsplit, hversion']

/-- The version byte begins with a `G`. -/
theorem Key.isPrefixOf_withCheck (k : Key) (first second : UInt8) :
    (lit "G").isPrefixOf (base32Encode (k.withCheck first second)) = true := by
  have hbits : bitsOf (k.withCheck first second) =
      toBits 8 48 ++ bitsOf (k.bytes ++ [first, second]) := rfl
  rw [base32Encode, hbits]
  rfl

/-- Two different rows of bytes are not spelt alike. -/
theorem base32Encode_inj (h : base32Encode (k.withCheck first second) = base32Encode bytes)
    (hlength : bytes.length = 35) : k.withCheck first second = bytes := by
  have hleft := base32Decode_eq_some_iff.mpr
    ⟨k.length_withCheck first second, k.isPrefixOf_withCheck first second, rfl⟩
  have hright := base32Decode_eq_some_iff.mpr
    ⟨hlength, h ▸ k.isPrefixOf_withCheck first second, rfl⟩
  rw [h, hright] at hleft
  exact (Option.some.inj hleft).symm

/-- Key and checksum can be read off. -/
theorem Key.withCheck_inj {first' second' : UInt8}
    (h : k.withCheck first second = k'.withCheck first' second') :
    k = k' ∧ first = first' ∧ second = second' := by
  have hparts := k.withCheck_parts first second
  have hparts' := k'.withCheck_parts first' second'
  rw [h] at hparts
  refine ⟨Key.ext (List.cons.inj (hparts.2.1.symm.trans hparts'.2.1)).2,
    hparts.2.2.1.symm.trans hparts'.2.2.1, hparts.2.2.2.symm.trans hparts'.2.2.2⟩

/-- The check of a key in two bytes. -/
theorem Key.check_eq (k : Key) :
    (crcXmodem k.payload).toNat = k.checkHigh.toNat * 256 + k.checkLow.toNat := by
  have hlt : (crcXmodem k.payload).toNat < 2 ^ 16 := (crcXmodem k.payload).isLt
  have hhigh : k.checkHigh.toNat = (crcXmodem k.payload).toNat / 256 :=
    UInt8.toNat_ofNat_of_lt' (show (crcXmodem k.payload).toNat / 256 < 256 by omega)
  have hlow : k.checkLow.toNat = (crcXmodem k.payload).toNat % 256 :=
    UInt8.toNat_ofNat_of_lt' (Nat.mod_lt _ (by decide))
  rw [hhigh, hlow]
  omega

/-- The code puts the first byte of the checksum above the second. -/
theorem actualCrc_eq (first second : UInt8) :
    (first.toNat <<< 8) ||| second.toNat = first.toNat * 256 + second.toNat := by
  have hlt : second.toNat < 2 ^ 8 := second.toNat_lt
  rw [← Nat.shiftLeft_add_eq_or_of_lt hlt, Nat.shiftLeft_eq]

/-- The check is read high byte first. -/
theorem Key.check_read_iff (k : Key) (first second : UInt8) :
    crc16 k.payload = (first.toNat <<< 8) ||| second.toNat ↔ first = k.checkHigh ∧ second = k.checkLow := by
  rw [crc16_eq, k.check_eq, actualCrc_eq]
  have hsecond : second.toNat < 256 := second.toNat_lt
  have hlow : k.checkLow.toNat < 256 := k.checkLow.toNat_lt
  constructor
  · intro h
    have hfirst : first.toNat = k.checkHigh.toNat := by omega
    have hsame : second.toNat = k.checkLow.toNat := by omega
    exact ⟨UInt8.toNat.inj hfirst, UInt8.toNat.inj hsame⟩
  · rintro ⟨rfl, rfl⟩
    rfl

/-- The code's checks, one after the other. -/
theorem validateAddress_valid_iff :
    (validateAddress address).valid = true ↔
      ∃ bytes, base32Decode (trim address) = some bytes ∧ (bytes.getD 0 0).toNat = 6 <<< 3 ∧
        crc16 (bytes.take 33) = ((bytes.getD 33 0).toNat <<< 8) ||| (bytes.getD 34 0).toNat := by
  rw [validateAddress]
  -- a string of another shape fails the check, and is not decoded
  by_cases hshape : (trim address).length ≠ 56 ∨ ¬ (lit "G").isPrefixOf (trim address) = true
  · rw [if_pos hshape]
    refine iff_of_false (by decide) ?_
    rintro ⟨bytes, hdecode, -⟩
    rw [base32Decode, if_pos hshape] at hdecode
    cases hdecode
  · rw [if_neg hshape]
    cases hdecode : base32Decode (trim address) with
    | none => simp
    | some bytes =>
        have hsome : ∀ P : List UInt8 → Prop, (∃ bytes', some bytes = some bytes' ∧ P bytes') ↔ P bytes := by
          simp
        rw [hsome]
        show (if (bytes.getD 0 0).toNat ≠ 6 <<< 3 then _ else _ : ValidateAddressResult).valid = true ↔ _
        by_cases hversion : (bytes.getD 0 0).toNat = 6 <<< 3
        · rw [if_neg (not_not.mpr hversion)]
          by_cases hcrc : crc16 (bytes.take 33) =
              ((bytes.getD 33 0).toNat <<< 8) ||| (bytes.getD 34 0).toNat
          · rw [if_neg (not_not.mpr hcrc)]
            exact iff_of_true rfl ⟨hversion, hcrc⟩
          · rw [if_pos hcrc]
            exact iff_of_false (by decide) fun h => hcrc h.2
        · rw [if_pos hversion]
          exact iff_of_false (by decide) fun h => hversion h.1

/-- **WHAT IS ACCEPTED**: keys written with the check the other way round. -/
theorem validateAddress_valid_iff_withCheck :
    (validateAddress address).valid = true ↔
      ∃ k : Key, trim address = base32Encode (k.withCheck k.checkHigh k.checkLow) := by
  rw [validateAddress_valid_iff]
  constructor
  · rintro ⟨bytes, hdecode, hversion, hcrc⟩
    obtain ⟨hlength, -, hencode⟩ := base32Decode_eq_some_iff.mp hdecode
    obtain ⟨k, first, second, rfl⟩ := exists_withCheck hlength (UInt8.toNat.inj hversion)
    obtain ⟨-, htake, hfirst, hsecond⟩ := k.withCheck_parts first second
    rw [htake, hfirst, hsecond, k.check_read_iff] at hcrc
    obtain ⟨rfl, rfl⟩ := hcrc
    exact ⟨k, hencode.symm⟩
  · rintro ⟨k, haddress⟩
    obtain ⟨hversion, htake, hfirst, hsecond⟩ := k.withCheck_parts k.checkHigh k.checkLow
    refine ⟨k.withCheck k.checkHigh k.checkLow, ?_, ?_, ?_⟩
    · rw [haddress]
      exact base32Decode_eq_some_iff.mpr ⟨k.length_withCheck _ _, k.isPrefixOf_withCheck _ _, rfl⟩
    · rw [hversion]
      rfl
    · rw [htake, hfirst, hsecond]
      exact (k.check_read_iff _ _).mpr ⟨rfl, rfl⟩

/-- There is nothing to trim. -/
theorem trim_base32Encode (bytes : List UInt8) : trim (base32Encode bytes) = base32Encode bytes := by
  refine trim_of_no_space fun u hu => ?_
  obtain ⟨v, hv, rfl⟩ := List.mem_map.mp hu
  exact symbol_not_space (mem_groups_lt hv)

/-- **WHEN AN ADDRESS IS JUDGED RIGHTLY**: a key as the format writes it is accepted
    exactly when the two bytes of its check are the same, and what is accepted is what
    the format writes of exactly one key exactly when they are. -/
theorem address_accepted_iff (k : Key) (address : JsString) :
    ((validateAddress (strKey k)).valid = true ↔ k.checkLow = k.checkHigh) ∧
      ((validateAddress address).valid = true →
        ((∃! k' : Key, trim address = strKey k') ↔
          ∃ bytes, base32Decode (trim address) = some bytes ∧ bytes.getD 33 0 = bytes.getD 34 0)) := by
  constructor
  -- the code compares the two bytes of the checksum the other way round
  · have htrim : trim (strKey k) = base32Encode (k.withCheck k.checkLow k.checkHigh) :=
      trim_base32Encode _
    rw [validateAddress_valid_iff_withCheck, htrim]
    constructor
    · rintro ⟨k', h⟩
      obtain ⟨rfl, hlow, -⟩ := Key.withCheck_inj (base32Encode_inj h (k'.length_withCheck _ _))
      exact hlow
    · intro hsame
      refine ⟨k, ?_⟩
      rw [hsame]
  · intro hvalid
    obtain ⟨k, haddress⟩ := validateAddress_valid_iff_withCheck.mp hvalid
    have hparts := k.withCheck_parts k.checkHigh k.checkLow
    have hdecode : base32Decode (trim address) = some (k.withCheck k.checkHigh k.checkLow) :=
      base32Decode_eq_some_iff.mpr
        ⟨k.length_withCheck _ _, haddress ▸ k.isPrefixOf_withCheck _ _, haddress.symm⟩
    -- the key can be read off its address
    have hkey : ∀ k' : Key, trim address = strKey k' → k = k' ∧ k.checkHigh = k'.checkLow := by
      intro k' h
      obtain ⟨hk, hfirst, -⟩ := Key.withCheck_inj
        (base32Encode_inj (haddress.symm.trans h) (k'.length_withCheck k'.checkLow k'.checkHigh))
      exact ⟨hk, hfirst⟩
    constructor
    · rintro ⟨k', h, -⟩
      obtain ⟨rfl, hsame⟩ := hkey k' h
      refine ⟨_, hdecode, ?_⟩
      rw [hparts.2.2.1, hparts.2.2.2, hsame]
    · rintro ⟨bytes, hbytes, hsame⟩
      rw [hdecode] at hbytes
      obtain rfl := Option.some.inj hbytes
      rw [hparts.2.2.1, hparts.2.2.2] at hsame
      refine ⟨k, ?_, fun k' h => (hkey k' h).1.symm⟩
      show trim address = base32Encode (k.withCheck k.checkLow k.checkHigh)
      rw [haddress, hsame]

/-- The key of thirty-two zero bytes. -/
def zeroKey : Key := ⟨List.replicate 32 0, rfl⟩

/-- The zero key, as the format writes it, is refused. -/
theorem zero_key_refused :
    strKey zeroKey = lit "GAAAAAAAAAAAAAAAAAAAAAAAAAAAAAAAAAAAAAAAAAAAAAAAAAAAAWHF" ∧
      validateAddress (strKey zeroKey) = ⟨false, some "Checksum mismatch"⟩ := by
  decide +kernel

end Verdict

end SaveStrKey
