import Migfm.Music.TypeSongs

/-! The two encoders of public/basic/base64.cc, by tables and by arithmetic, and what the decoder makes of their
texts. -/
namespace Migfm.Music.Base64
open TypeSongs
open Logic (ascii)

/-- The table has four times each character. -/
def e0 (t : UInt8) : UInt8 := base64_chars.getD (t >>> 2).toNat 0

/-- `e1` and `e2` are one table, the characters four times over. -/
def e1 (t : UInt8) : UInt8 := base64_chars.getD (t &&& 63).toNat 0

def CHARPAD : UInt8 := 61

/-- What is written to `dest`, without the zero. No outcome: a byte behind `str` is read. -/
def modp_b64_encode : List UInt8 → Nat → Option (List UInt8)
  | t1::t2::t3::str, len + 3 =>
    (modp_b64_encode str len).map fun dest =>
      e0 t1::e1 ((t1 &&& 3) <<< 4 ||| (t2 >>> 4 &&& 15))::e1 ((t2 &&& 15) <<< 2 ||| (t3 >>> 6 &&& 3))::e1 t3::dest
  | t1::t2::_, 2 => some [e0 t1,e1 ((t1 &&& 3) <<< 4 ||| (t2 >>> 4 &&& 15)),e1 ((t2 &&& 15) <<< 2),CHARPAD]
  | t1::_, 1 => some [e0 t1,e1 ((t1 &&& 3) <<< 4),CHARPAD,CHARPAD]
  | _, 0 => some []
  | _, _ => none

def modp_b64_encode_len (size : Nat) : Nat := (size + 2) / 3 * 4 + 1

/-- The length goes through an `int`. No outcome also where more is written than `temp` holds. -/
def Base64Encode (input : List UInt8) : Option (List UInt8) :=
  match modp_b64_encode input (Int32.ofNat input.length).toInt64.toUInt64.toNat with
  | none => none
  | some output => if output.length < modp_b64_encode_len input.length then some output else none

def char_array_4 (first second third : UInt8) : List UInt8 :=
  [(first &&& 0xfc) >>> 2,((first &&& 3) <<< 4) + ((second &&& 0xf0) >>> 4),((second &&& 15) <<< 2) + ((third &&& 0xc0) >>> 6),
    third &&& 0x3f]

def chars (char_array_4 : List UInt8) : List UInt8 := char_array_4.map fun i => base64_chars.getD i.toNat 0

def base64_encode : List UInt8 → List UInt8
  | first::second::third::bytes_to_encode => chars (char_array_4 first second third) ++ base64_encode bytes_to_encode
  | [first,second] => chars ((char_array_4 first second 0).take 3) ++ [61]
  | [first] => chars ((char_array_4 first 0 0).take 2) ++ [61,61]
  | [] => []

/-! ### Six bits -/

section Sextets
variable {t1 t2 t3 : UInt8}

theorem toNat_low (t : UInt8) {m : UInt8} (n : Nat) (mask : m.toNat = 2 ^ n - 1) : (t &&& m).toNat = t.toNat % 2 ^ n := by
  rw [UInt8.toNat_and,mask]
  exact Nat.and_two_pow_sub_one_eq_mod _ n

theorem toNat_field (t : UInt8) {m s : UInt8} (n : Nat) (small : s.toNat < 8) (mask : m.toNat >>> s.toNat = 2 ^ n - 1) :
    ((t &&& m) >>> s).toNat = t.toNat / 2 ^ s.toNat % 2 ^ n := by
  rw [UInt8.toNat_shiftRight,UInt8.toNat_and,Nat.mod_eq_of_lt small,Nat.shiftRight_and_distrib,mask,Nat.shiftRight_eq_div_pow]
  exact Nat.and_two_pow_sub_one_eq_mod _ n

theorem toNat_right (t : UInt8) {s : UInt8} (small : s.toNat < 8) : (t >>> s).toNat = t.toNat / 2 ^ s.toNat := by
  rw [UInt8.toNat_shiftRight,Nat.mod_eq_of_lt small,Nat.shiftRight_eq_div_pow]

theorem toNat_left (t : UInt8) {s : UInt8} (small : s.toNat < 8) : (t <<< s).toNat = t.toNat * 2 ^ s.toNat % 256 := by
  rw [UInt8.toNat_shiftLeft,Nat.mod_eq_of_lt small,Nat.shiftLeft_eq]

theorem toNat_or {a b : UInt8} (k n : Nat) (high : a.toNat = 2 ^ k * n) (low : b.toNat < 2 ^ k) :
    (a ||| b).toNat = a.toNat + b.toNat := by
  rw [UInt8.toNat_or,high,Nat.two_pow_add_eq_or_of_lt low]

theorem second_sextet (t1 t2 : UInt8) :
    ((t1 &&& 3) <<< 4 ||| (t2 >>> 4 &&& 15)).toNat = 16 * (t1.toNat % 4) + t2.toNat / 16 := by
  have byte := t2.toNat_lt
  have high : ((t1 &&& 3) <<< 4).toNat = 2 ^ 4 * (t1.toNat % 4) := by
    rw [toNat_left _ (by decide),toNat_low t1 2 rfl]
    change t1.toNat % 4 * 16 % 256 = 16 * (t1.toNat % 4)
    omega
  have low : (t2 >>> 4 &&& 15).toNat = t2.toNat / 16 := by
    rw [toNat_low _ 4 rfl,toNat_right t2 (by decide)]
    change t2.toNat / 16 % 16 = t2.toNat / 16
    omega
  rw [toNat_or 4 _ high (by rw [low]; omega),high,low]
  rfl

theorem third_sextet (t2 t3 : UInt8) :
    ((t2 &&& 15) <<< 2 ||| (t3 >>> 6 &&& 3)).toNat = 4 * (t2.toNat % 16) + t3.toNat / 64 := by
  have byte := t3.toNat_lt
  have high : ((t2 &&& 15) <<< 2).toNat = 2 ^ 2 * (t2.toNat % 16) := by
    rw [toNat_left _ (by decide),toNat_low t2 4 rfl]
    change t2.toNat % 16 * 4 % 256 = 4 * (t2.toNat % 16)
    omega
  have low : (t3 >>> 6 &&& 3).toNat = t3.toNat / 64 := by
    rw [toNat_low _ 2 rfl,toNat_right t3 (by decide)]
    change t3.toNat / 64 % 4 = t3.toNat / 64
    omega
  rw [toNat_or 2 _ high (by rw [low]; omega),high,low]
  rfl

/-- Without a next byte it is as with a zero. -/
theorem last_sextet (t : UInt8) : (t &&& 3) <<< 4 = (t &&& 3) <<< 4 ||| ((0 : UInt8) >>> 4 &&& 15) ∧
    (t &&& 15) <<< 2 = (t &&& 15) <<< 2 ||| ((0 : UInt8) >>> 6 &&& 3) :=
  ⟨UInt8.or_zero.symm,UInt8.or_zero.symm⟩

set_option maxRecDepth 10000 in
theorem find_chars : ∀ k : Fin 64, base64_chars.getD k 0 ∈ base64_chars ∧ find (base64_chars.getD k 0) = k.val.toUInt8 := by
  decide

theorem find_sextet {i : UInt8} (small : i.toNat < 64) :
    base64_chars.getD i.toNat 0 ∈ base64_chars ∧ find (base64_chars.getD i.toNat 0) = i := by
  obtain ⟨listed,found⟩ := find_chars ⟨i.toNat,small⟩
  exact ⟨listed,found.trans UInt8.ofNat_toNat⟩

theorem first_small (t : UInt8) : (t >>> 2).toNat < 64 := by
  have byte := t.toNat_lt
  rw [toNat_right t (by decide)]
  change t.toNat / 4 < 64
  omega

theorem masked_small (t : UInt8) : (t &&& 63).toNat < 64 := by
  rw [toNat_low t 6 rfl]
  exact Nat.mod_lt _ (by decide)

theorem e0_listed (t : UInt8) : e0 t ∈ base64_chars := (find_sextet (first_small t)).1

theorem e1_listed (t : UInt8) : e1 t ∈ base64_chars := (find_sextet (masked_small t)).1

theorem find_e0 (t : UInt8) : (find (e0 t)).toNat = t.toNat / 4 := by
  rw [e0,(find_sextet (first_small t)).2,toNat_right t (by decide)]
  rfl

theorem find_e1 (t : UInt8) : (find (e1 t)).toNat = t.toNat % 64 := by
  rw [e1,(find_sextet (masked_small t)).2]
  exact toNat_low t 6 rfl

/-! ### The bytes -/

theorem first_byte {a b : UInt8} (first : a.toNat = t1.toNat / 4) (second : b.toNat = 16 * (t1.toNat % 4) + t2.toNat / 16) :
    (a <<< 2) + ((b &&& 0x30) >>> 4) = t1 := by
  have byte := t1.toNat_lt
  have byte' := t2.toNat_lt
  apply UInt8.toNat_inj.mp
  rw [UInt8.toNat_add,toNat_left a (by decide),toNat_field b 2 (by decide) rfl,first,second]
  change (t1.toNat / 4 * 4 % 256 + (16 * (t1.toNat % 4) + t2.toNat / 16) / 16 % 4) % 256 = t1.toNat
  omega

theorem second_byte {b c : UInt8} (second : b.toNat = 16 * (t1.toNat % 4) + t2.toNat / 16)
    (third : c.toNat = 4 * (t2.toNat % 16) + t3.toNat / 64) : ((b &&& 0xf) <<< 4) + ((c &&& 0x3c) >>> 2) = t2 := by
  have byte := t2.toNat_lt
  have byte' := t3.toNat_lt
  apply UInt8.toNat_inj.mp
  rw [UInt8.toNat_add,toNat_left _ (by decide),toNat_low b 4 rfl,toNat_field c 4 (by decide) rfl,second,third]
  change ((16 * (t1.toNat % 4) + t2.toNat / 16) % 16 * 16 % 256 + (4 * (t2.toNat % 16) + t3.toNat / 64) / 4 % 16) % 256 = t2.toNat
  omega

theorem third_byte {c d : UInt8} (third : c.toNat = 4 * (t2.toNat % 16) + t3.toNat / 64) (fourth : d.toNat = t3.toNat % 64) :
    ((c &&& 0x3) <<< 6) + d = t3 := by
  have byte := t3.toNat_lt
  apply UInt8.toNat_inj.mp
  rw [UInt8.toNat_add,toNat_left _ (by decide),toNat_low c 2 rfl,third,fourth]
  change ((4 * (t2.toNat % 16) + t3.toNat / 64) % 4 * 64 % 256 + t3.toNat % 64) % 256 = t3.toNat
  omega

theorem find_second (t1 t2 : UInt8) :
    (find (e1 ((t1 &&& 3) <<< 4 ||| (t2 >>> 4 &&& 15)))).toNat = 16 * (t1.toNat % 4) + t2.toNat / 16 := by
  have byte := t2.toNat_lt
  rw [find_e1,second_sextet]
  omega

theorem find_third (t2 t3 : UInt8) :
    (find (e1 ((t2 &&& 15) <<< 2 ||| (t3 >>> 6 &&& 3)))).toNat = 4 * (t2.toNat % 16) + t3.toNat / 64 := by
  have byte := t3.toNat_lt
  rw [find_e1,third_sextet]
  omega

end Sextets

/-! ### The decoder -/

theorem pad_apart : CHARPAD ∉ base64_chars := by decide

theorem Base64Decode_cons {c0 c1 c2 c3 : UInt8} {text : List UInt8} (listed : ∀ c ∈ [c0,c1,c2,c3], c ∈ base64_chars) :
    Base64Decode (c0::c1::c2::c3::text) = char_array_3 (find c0) (find c1) (find c2) (find c3) ++ Base64Decode text := by
  simp only [List.forall_mem_cons] at listed
  obtain ⟨first,second,third,fourth,-⟩ := listed
  simp only [Base64Decode,List.takeWhile_cons,first,second,third,fourth,decide_true,if_true]
  rfl

theorem Base64Decode_two {c0 c1 : UInt8} {rest : List UInt8} (listed : ∀ c ∈ [c0,c1], c ∈ base64_chars) :
    Base64Decode (c0::c1::CHARPAD::rest) = (char_array_3 (find c0) (find c1) 255 255).take 1 := by
  simp only [List.forall_mem_cons] at listed
  obtain ⟨first,second,-⟩ := listed
  simp only [Base64Decode,List.takeWhile_cons,first,second,pad_apart,decide_true,decide_false,if_true]
  rfl

theorem Base64Decode_three {c0 c1 c2 : UInt8} {rest : List UInt8} (listed : ∀ c ∈ [c0,c1,c2], c ∈ base64_chars) :
    Base64Decode (c0::c1::c2::CHARPAD::rest) = (char_array_3 (find c0) (find c1) (find c2) 255).take 2 := by
  simp only [List.forall_mem_cons] at listed
  obtain ⟨first,second,third,-⟩ := listed
  simp only [Base64Decode,List.takeWhile_cons,first,second,third,pad_apart,decide_true,decide_false,if_true]
  rfl

/-! ### The two encoders -/

theorem e1_small {i : UInt8} (small : i.toNat < 64) : base64_chars.getD i.toNat 0 = e1 i := by
  have whole : (i &&& 63).toNat = i.toNat := (toNat_low i 6 rfl).trans (Nat.mod_eq_of_lt small)
  rw [e1,whole]

theorem chars_group (t1 t2 t3 : UInt8) : chars (char_array_4 t1 t2 t3) =
    [e0 t1,e1 ((t1 &&& 3) <<< 4 ||| (t2 >>> 4 &&& 15)),e1 ((t2 &&& 15) <<< 2 ||| (t3 >>> 6 &&& 3)),e1 t3] := by
  have byte := t1.toNat_lt
  have byte' := t2.toNat_lt
  have byte'' := t3.toNat_lt
  have first : (t1 &&& 0xfc) >>> 2 = t1 >>> 2 := by
    apply UInt8.toNat_inj.mp
    rw [toNat_field t1 6 (by decide) rfl,toNat_right t1 (by decide)]
    change t1.toNat / 4 % 64 = t1.toNat / 4
    omega
  have second : ((t1 &&& 3) <<< 4) + ((t2 &&& 0xf0) >>> 4) = (t1 &&& 3) <<< 4 ||| (t2 >>> 4 &&& 15) := by
    apply UInt8.toNat_inj.mp
    rw [second_sextet,UInt8.toNat_add,toNat_left _ (by decide),toNat_low t1 2 rfl,toNat_field t2 4 (by decide) rfl]
    change (t1.toNat % 4 * 16 % 256 + t2.toNat / 16 % 16) % 256 = 16 * (t1.toNat % 4) + t2.toNat / 16
    omega
  have third : ((t2 &&& 15) <<< 2) + ((t3 &&& 0xc0) >>> 6) = (t2 &&& 15) <<< 2 ||| (t3 >>> 6 &&& 3) := by
    apply UInt8.toNat_inj.mp
    rw [third_sextet,UInt8.toNat_add,toNat_left _ (by decide),toNat_low t2 4 rfl,toNat_field t3 2 (by decide) rfl]
    change (t2.toNat % 16 * 4 % 256 + t3.toNat / 64 % 4) % 256 = 4 * (t2.toNat % 16) + t3.toNat / 64
    omega
  rw [char_array_4,first,second,third]
  simp only [chars,List.map_cons,List.map_nil]
  rw [e1_small (i := (t1 &&& 3) <<< 4 ||| (t2 >>> 4 &&& 15)) (by rw [second_sextet]; omega),
    e1_small (i := (t2 &&& 15) <<< 2 ||| (t3 >>> 6 &&& 3)) (by rw [third_sextet]; omega)]
  rfl

theorem base64_encode_two (t1 t2 : UInt8) : base64_encode [t1,t2] =
    [e0 t1,e1 ((t1 &&& 3) <<< 4 ||| (t2 >>> 4 &&& 15)),e1 ((t2 &&& 15) <<< 2),CHARPAD] := by
  obtain ⟨-,third⟩ := last_sextet t2
  rw [base64_encode,chars,List.map_take,← chars,chars_group,← third]
  rfl

theorem base64_encode_one (t1 : UInt8) : base64_encode [t1] = [e0 t1,e1 ((t1 &&& 3) <<< 4),CHARPAD,CHARPAD] := by
  obtain ⟨second,-⟩ := last_sextet t1
  rw [base64_encode,chars,List.map_take,← chars,chars_group,← second]
  rfl

/-- The tables give what the arithmetic gives for the first `len` bytes. -/
theorem modp_b64_encode_eq (str : List UInt8) (len : Nat) :
    modp_b64_encode str len = if len ≤ str.length then some (base64_encode (str.take len)) else none := by
  induction str,len using modp_b64_encode.induct with
  | case1 t1 t2 t3 str len ih =>
    rw [modp_b64_encode,ih,List.length_cons,List.length_cons,List.length_cons]
    by_cases there : len ≤ str.length
    · rw [if_pos there,if_pos (Nat.add_le_add_right there 3),List.take_succ_cons,List.take_succ_cons,List.take_succ_cons,
        base64_encode,chars_group]
      rfl
    · rw [if_neg there,if_neg fun more => there (Nat.le_of_add_le_add_right (b := 3) more)]
      rfl
  | case2 t1 t2 str =>
    rw [modp_b64_encode,if_pos (by simp)]
    exact congrArg some (base64_encode_two t1 t2).symm
  | case3 t1 str =>
    rw [modp_b64_encode,if_pos (by simp)]
    exact congrArg some (base64_encode_one t1).symm
  | case4 str =>
    rw [modp_b64_encode,if_pos (Nat.zero_le _)]
    rfl
  | case5 str len zero whole two one =>
    have behind : ¬len ≤ str.length := by
      intro there
      rcases str with _ | ⟨t1,_ | ⟨t2,_ | ⟨t3,str⟩⟩⟩
      all_goals simp only [List.length_cons,List.length_nil] at there
      · exact zero (by omega)
      · exact one t1 [] rfl (Nat.le_antisymm there (Nat.pos_of_ne_zero zero))
      · rcases Nat.lt_or_eq_of_le there with less | same
        · exact one t1 [t2] rfl (Nat.le_antisymm (Nat.le_of_lt_succ less) (Nat.pos_of_ne_zero zero))
        · exact two t1 t2 [] rfl same
      · rcases Nat.lt_or_ge 2 len with more | few
        · obtain ⟨rest,rfl⟩ := Nat.exists_eq_add_of_le more
          exact whole t1 t2 t3 str rest rfl (Nat.add_comm ..)
        · have some_ := Nat.pos_of_ne_zero zero
          have either : len = 1 ∨ len = 2 := by omega
          rcases either with single | pair
          · exact one t1 _ rfl single
          · exact two t1 t2 _ rfl pair
    rw [if_neg behind]
    exact modp_b64_encode.eq_5 str len zero whole two one

theorem length_base64_encode (str : List UInt8) : (base64_encode str).length = (str.length + 2) / 3 * 4 := by
  induction str using base64_encode.induct with
  | case1 t1 t2 t3 str ih =>
    rw [base64_encode,List.length_append,ih]
    simp only [chars,char_array_4,List.length_map,List.length_cons,List.length_nil]
    omega
  | case2 t1 t2 =>
    rw [base64_encode]
    simp [chars,char_array_4]
  | case3 t1 =>
    rw [base64_encode]
    simp [chars,char_array_4]
  | case4 => rfl

theorem decode_base64_encode (str : List UInt8) : Base64Decode (base64_encode str) = str := by
  induction str using base64_encode.induct with
  | case1 t1 t2 t3 str ih =>
    rw [base64_encode,chars_group,List.cons_append,List.cons_append,List.cons_append,List.cons_append,List.nil_append,
      Base64Decode_cons,ih,char_array_3,first_byte (find_e0 t1) (find_second t1 t2),second_byte (find_second t1 t2) (find_third t2 t3),
      third_byte (find_third t2 t3) (find_e1 t3)]
    · rfl
    · simp only [List.forall_mem_cons]
      exact ⟨e0_listed t1,e1_listed _,e1_listed _,e1_listed t3,fun c none_ => absurd none_ List.not_mem_nil⟩
  | case2 t1 t2 =>
    obtain ⟨-,third⟩ := last_sextet t2
    rw [base64_encode_two,third,Base64Decode_three,char_array_3,first_byte (find_e0 t1) (find_second t1 t2),second_byte (find_second t1 t2) (find_third t2 0)]
    · rfl
    · simp only [List.forall_mem_cons]
      exact ⟨e0_listed t1,e1_listed _,e1_listed _,fun c none_ => absurd none_ List.not_mem_nil⟩
  | case3 t1 =>
    obtain ⟨second,-⟩ := last_sextet t1
    rw [base64_encode_one,second,Base64Decode_two,char_array_3,first_byte (find_e0 t1) (find_second t1 0)]
    · rfl
    · simp only [List.forall_mem_cons]
      exact ⟨e0_listed t1,e1_listed _,fun c none_ => absurd none_ List.not_mem_nil⟩
  | case4 => rfl

/-- No text has a zero. -/
theorem base64_encode_nonzero (str : List UInt8) : 0 ∉ base64_encode str := by
  have e0_nonzero (t : UInt8) : 0 ≠ e0 t := fun zero => absurd (zero ▸ e0_listed t) (by decide)
  have e1_nonzero (t : UInt8) : 0 ≠ e1 t := fun zero => absurd (zero ▸ e1_listed t) (by decide)
  have pad_nonzero : 0 ≠ CHARPAD := by decide
  induction str using base64_encode.induct with
  | case1 t1 t2 t3 str ih =>
    rw [base64_encode,chars_group,List.mem_append,not_or]
    simp only [List.mem_cons,List.not_mem_nil,or_false,not_or]
    exact ⟨⟨e0_nonzero t1,e1_nonzero _,e1_nonzero _,e1_nonzero t3⟩,ih⟩
  | case2 t1 t2 =>
    rw [base64_encode_two]
    simp only [List.mem_cons,List.not_mem_nil,or_false,not_or]
    exact ⟨e0_nonzero t1,e1_nonzero _,e1_nonzero _,pad_nonzero⟩
  | case3 t1 =>
    rw [base64_encode_one]
    simp only [List.mem_cons,List.not_mem_nil,or_false,not_or]
    exact ⟨e0_nonzero t1,e1_nonzero _,pad_nonzero,pad_nonzero⟩
  | case4 => exact List.not_mem_nil

theorem size_t_int (n : Nat) :
    (Int32.ofNat n).toInt64.toUInt64.toNat = if n % 2 ^ 32 < 2 ^ 31 then n % 2 ^ 32 else n % 2 ^ 32 + (2 ^ 64 - 2 ^ 32) := by
  change ((BitVec.ofNat 32 n).signExtend 64).toNat = _
  rw [BitVec.toNat_signExtend,BitVec.msb_eq_decide,BitVec.toNat_setWidth,BitVec.toNat_ofNat]
  by_cases positive : n % 2 ^ 32 < 2 ^ 31
  · rw [if_neg (by simpa using positive),if_pos positive]
    omega
  · rw [if_pos (by simpa using positive),if_neg positive]
    omega

/-- The length goes through an `int`, and a negative one is far behind the end. -/
theorem Base64Encode_eq {input : List UInt8} (sized : input.length < 2 ^ 63) : Base64Encode input =
    if input.length % 2 ^ 32 < 2 ^ 31 then some (base64_encode (input.take (input.length % 2 ^ 32))) else none := by
  rw [Base64Encode,modp_b64_encode_eq,size_t_int]
  by_cases positive : input.length % 2 ^ 32 < 2 ^ 31
  · rw [if_pos positive,if_pos (Nat.mod_le ..),if_pos positive]
    have fits : (base64_encode (input.take (input.length % 2 ^ 32))).length < modp_b64_encode_len input.length := by
      rw [length_base64_encode,List.length_take,modp_b64_encode_len]
      have less := Nat.mod_le input.length (2 ^ 32)
      omega
    simp only [fits,if_true]
  · rw [if_neg positive,if_neg,if_neg positive]
    omega

/-- An input that an `int` can count is encoded as it is. -/
theorem Base64Encode_short {input : List UInt8} (short : input.length < 2 ^ 31) : Base64Encode input = some (base64_encode input) := by
  have small : input.length % 2 ^ 32 = input.length := Nat.mod_eq_of_lt (short.trans (by decide))
  rw [Base64Encode_eq (short.trans (by decide)),small,if_pos short,List.take_length]

/-- What `Base64Encode` does for an input of any length, and what its text is decoded to. The decoder counts in an `int`. -/
theorem Base64Encode_decoded (input : List UInt8) (sized : input.length < 2 ^ 63) :
    Base64Encode input = (if input.length % 2 ^ 32 < 2 ^ 31 then some (base64_encode (input.take (input.length % 2 ^ 32))) else none) ∧
      ∀ output, Base64Encode input = some output → output.length < 2 ^ 31 →
        Base64Decode output = input.take (input.length % 2 ^ 32) := by
  have encoded := Base64Encode_eq sized
  refine ⟨encoded,?_⟩
  intro output found short
  rw [encoded] at found
  split_ifs at found
  cases found
  exact decode_base64_encode _

theorem many_decoded : Base64Encode (ascii "Many") = some (ascii "TWFueQ==") ∧ Base64Decode (ascii "TWFueQ==") = ascii "Many" := by
  obtain ⟨-,decoded⟩ := Base64Encode_decoded (ascii "Many") (by decide)
  have text : Base64Encode (ascii "Many") = some (ascii "TWFueQ==") := by decide
  exact ⟨text,decoded _ text (by decide)⟩

end Migfm.Music.Base64
