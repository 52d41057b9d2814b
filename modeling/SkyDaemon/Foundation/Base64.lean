import Mathlib.Data.List.Basic

/-! The standard base64 text of a list of bytes, padded, and the decoder that takes canonical texts
only: full groups of four, padding at the end alone, and no bits behind the last byte. -/
namespace SkyDaemon.Base64Text

def alphabet : List Char := "ABCDEFGHIJKLMNOPQRSTUVWXYZabcdefghijklmnopqrstuvwxyz0123456789+/".toList

def digit (value : Nat) : Char := alphabet.getD value 'A'

def value (c : Char) : Option Nat := alphabet.idxOf? c

def encode : List UInt8 → List Char
  | [] => []
  | [a] => [digit (a.toNat / 4), digit (a.toNat % 4 * 16), '=', '=']
  | [a, b] =>
      [digit (a.toNat / 4), digit (a.toNat % 4 * 16 + b.toNat / 16), digit (b.toNat % 16 * 4), '=']
  | a :: b :: c :: rest =>
      digit (a.toNat / 4) :: digit (a.toNat % 4 * 16 + b.toNat / 16) ::
        digit (b.toNat % 16 * 4 + c.toNat / 64) :: digit (c.toNat % 64) :: encode rest

/-- The bytes that begin in each of the first three digits of a group. -/
def firstByte (p q : Nat) : UInt8 := UInt8.ofNat (p * 4 + q / 16)
def secondByte (q r : Nat) : UInt8 := UInt8.ofNat (q % 16 * 16 + r / 4)
def thirdByte (r s : Nat) : UInt8 := UInt8.ofNat (r % 4 * 64 + s)

/-- The last group, where it is padded. -/
def closing (w x y : Char) : Option (List UInt8) := do
  let p ← value w
  let q ← value x
  if y = '=' then if q % 16 = 0 then some [firstByte p q] else none
  else
    let r ← value y
    if r % 4 = 0 then some [firstByte p q, secondByte q r] else none

def decode : List Char → Option (List UInt8)
  | [] => some []
  | w :: x :: y :: z :: rest =>
      if z = '=' then if rest = [] then closing w x y else none
      else do
        let p ← value w
        let q ← value x
        let r ← value y
        let s ← value z
        let more ← decode rest
        some (firstByte p q :: secondByte q r :: thirdByte r s :: more)
  | _ => none

/-! ## Digits -/

theorem value_digit (bound : v < 64) : value (digit v) = some v := by
  have all : ∀ v : Fin 64, value (digit v) = some v.val := by decide +kernel
  exact all ⟨v, bound⟩

theorem of_value (found : value c = some v) : v < 64 ∧ digit v = c := by
  have size : alphabet.length = 64 := by decide +kernel
  obtain ⟨bound, stands, -⟩ := List.idxOf?_eq_some_iff.mp found
  refine ⟨size ▸ bound, ?_⟩
  rw [digit, List.getD_eq_getElem?_getD, List.getElem?_eq_getElem bound, stands]
  rfl

theorem digit_ne_pad (bound : v < 64) : digit v ≠ '=' := by
  intro same
  have none : value '=' = none := by decide +kernel
  have found := value_digit bound
  rw [same, none] at found
  contradiction

/-! ## Bytes and digits -/

theorem toNat_firstByte (p_lt : p < 64) (q_lt : q < 64) : (firstByte p q).toNat = p * 4 + q / 16 := by
  rw [firstByte, UInt8.toNat_ofNat']
  omega

theorem toNat_secondByte (r_lt : r < 64) : (secondByte q r).toNat = q % 16 * 16 + r / 4 := by
  rw [secondByte, UInt8.toNat_ofNat']
  omega

theorem toNat_thirdByte (s_lt : s < 64) : (thirdByte r s).toNat = r % 4 * 64 + s := by
  rw [thirdByte, UInt8.toNat_ofNat']
  omega

theorem firstByte_split (a : UInt8) (low_lt : low < 16) : firstByte (a.toNat / 4) (a.toNat % 4 * 16 + low) = a := by
  have bound := a.toNat_lt
  rw [← UInt8.toNat_inj, toNat_firstByte (by omega) (by omega)]
  omega

theorem secondByte_split (b : UInt8) (high : Nat) (low_lt : low < 4) :
    secondByte (high * 16 + b.toNat / 16) (b.toNat % 16 * 4 + low) = b := by
  have bound := b.toNat_lt
  rw [← UInt8.toNat_inj, toNat_secondByte (by omega)]
  omega

theorem thirdByte_split (c : UInt8) (high : Nat) :
    thirdByte (high * 4 + c.toNat / 64) (c.toNat % 64) = c := by
  have bound := c.toNat_lt
  rw [← UInt8.toNat_inj, toNat_thirdByte (by omega)]
  omega

/-! ## The round trips -/

theorem decode_encode (bytes : List UInt8) : decode (encode bytes) = some bytes := by
  induction bytes using encode.induct with
  | case1 => rfl
  | case2 a =>
    have a_lt := a.toNat_lt
    have first : firstByte (a.toNat / 4) (a.toNat % 4 * 16) = a := firstByte_split a (Nat.zero_lt_succ _)
    rw [encode, decode, if_pos rfl, if_pos rfl, closing, value_digit (by omega), value_digit (by omega)]
    simp only [Option.bind_eq_bind, Option.bind_some, if_true, Nat.mul_mod_left, first]
  | case3 a b =>
    have a_lt := a.toNat_lt
    have b_lt := b.toNat_lt
    have first := firstByte_split a (show b.toNat / 16 < 16 by omega)
    have second : secondByte (a.toNat % 4 * 16 + b.toNat / 16) (b.toNat % 16 * 4) = b :=
      secondByte_split b _ (Nat.zero_lt_succ _)
    rw [encode, decode, if_pos rfl, if_pos rfl, closing, value_digit (by omega), value_digit (by omega)]
    simp only [Option.bind_eq_bind, Option.bind_some]
    rw [if_neg (digit_ne_pad (by omega)), value_digit (by omega)]
    simp only [Option.bind_some, if_true, Nat.mul_mod_left, first, second]
  | case4 a b c rest ih =>
    have a_lt := a.toNat_lt
    have b_lt := b.toNat_lt
    have c_lt := c.toNat_lt
    have first := firstByte_split a (show b.toNat / 16 < 16 by omega)
    have second := secondByte_split b (a.toNat % 4) (show c.toNat / 64 < 4 by omega)
    have third := thirdByte_split c (b.toNat % 16)
    rw [encode, decode, if_neg (digit_ne_pad (by omega)), value_digit (by omega), value_digit (by omega),
      value_digit (by omega), value_digit (by omega), ih]
    simp only [Option.bind_eq_bind, Option.bind_some, first, second, third]

theorem encode_of_closing (decoded : closing w x y = some bytes) : encode bytes = [w, x, y, '='] := by
  simp only [closing, Option.bind_eq_bind, Option.bind_eq_some_iff] at decoded
  obtain ⟨p, first, q, second, decoded⟩ := decoded
  obtain ⟨p_lt, rfl⟩ := of_value first
  obtain ⟨q_lt, rfl⟩ := of_value second
  split at decoded
  · rename_i padded
    split at decoded
    · cases decoded
      rw [encode, toNat_firstByte p_lt q_lt, padded, show (p * 4 + q / 16) / 4 = p by omega,
        show (p * 4 + q / 16) % 4 * 16 = q by omega]
    · contradiction
  · simp only [Option.bind_eq_some_iff] at decoded
    obtain ⟨r, third, decoded⟩ := decoded
    obtain ⟨r_lt, rfl⟩ := of_value third
    split at decoded
    · cases decoded
      rw [encode, toNat_firstByte p_lt q_lt, toNat_secondByte r_lt, show (p * 4 + q / 16) / 4 = p by omega,
        show (p * 4 + q / 16) % 4 * 16 + (q % 16 * 16 + r / 4) / 16 = q by omega,
        show (q % 16 * 16 + r / 4) % 16 * 4 = r by omega]
    · contradiction

/-- Only the text that stands for the bytes is decoded to them. -/
theorem encode_of_decode (decoded : decode text = some bytes) : encode bytes = text := by
  fun_induction decode text generalizing bytes with
  | case1 =>
    cases decoded
    rfl
  | case2 w x y =>
    exact encode_of_closing decoded
  | case3 => contradiction
  | case4 w x y z rest full ih =>
    simp only [Option.bind_eq_bind, Option.bind_eq_some_iff] at decoded
    obtain ⟨p, first, q, second, r, third, s, fourth, more, following, same⟩ := decoded
    cases same
    obtain ⟨p_lt, rfl⟩ := of_value first
    obtain ⟨q_lt, rfl⟩ := of_value second
    obtain ⟨r_lt, rfl⟩ := of_value third
    obtain ⟨s_lt, rfl⟩ := of_value fourth
    rw [encode, ih following, toNat_firstByte p_lt q_lt, toNat_secondByte r_lt, toNat_thirdByte s_lt,
      show (p * 4 + q / 16) / 4 = p by omega,
      show (p * 4 + q / 16) % 4 * 16 + (q % 16 * 16 + r / 4) / 16 = q by omega,
      show (q % 16 * 16 + r / 4) % 16 * 4 + (r % 4 * 64 + s) / 64 = r by omega,
      show (r % 4 * 64 + s) % 64 = s by omega]
  | case5 => contradiction

theorem decode_eq_some_iff : decode text = some bytes ↔ encode bytes = text := by
  refine ⟨encode_of_decode, ?_⟩
  rintro rfl
  exact decode_encode bytes

end SkyDaemon.Base64Text
