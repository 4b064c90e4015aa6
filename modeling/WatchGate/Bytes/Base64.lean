import WatchGate.Bytes

/-!
# WatchGate: base64

Three bytes as four characters of the standard alphabet, with equals signs where
the last three bytes are not all there.
-/

namespace WatchGate.Bytes

/-- The character for a value of six bits. -/
def sextet (n : Nat) : Char :=
  if n < 26 then Char.ofNat (65 + n)
  else if n < 52 then Char.ofNat (71 + n)
  else if n < 62 then Char.ofNat (n - 4)
  else if n = 62 then '+'
  else '/'

/-- The base64 text of bytes. -/
def toBase64 : Bytes → List Char
  | [] => []
  | [a] => [sextet (a.toNat / 4), sextet (a.toNat % 4 * 16), '=', '=']
  | [a, b] =>
    [sextet (a.toNat / 4), sextet (a.toNat % 4 * 16 + b.toNat / 16),
      sextet (b.toNat % 16 * 4), '=']
  | a :: b :: c :: rest =>
    sextet (a.toNat / 4) :: sextet (a.toNat % 4 * 16 + b.toNat / 16) ::
      sextet (b.toNat % 16 * 4 + c.toNat / 64) :: sextet (c.toNat % 64) :: toBase64 rest

/-- Every three bytes begun take four characters. -/
theorem length_toBase64 (bs : Bytes) : (toBase64 bs).length = 4 * ((bs.length + 2) / 3) := by
  fun_induction toBase64 bs with
  | case1 => rfl
  | case2 => simp
  | case3 => simp
  | case4 a b c rest ih => simp only [List.length_cons, ih]; omega

end WatchGate.Bytes
