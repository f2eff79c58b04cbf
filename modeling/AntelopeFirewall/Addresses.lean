import AntelopeFirewall.Config.Basic

/-!
# Texts of Addresses

Limiters and pins tell clients apart by the text of their address.

- `Crates.TellsApart` is what they rely on: every address has a text of its own,
- `Crates.spelled` is an instance with the dotted texts of the real library.
-/

namespace AntelopeFirewall

open Library

/-- Different addresses are written differently: the text of an address can be read back. -/
def Crates.TellsApart (crates : Crates) : Prop := Function.Injective crates.ipToString

/-! ## Dotted texts -/

/-- A number in decimal. -/
def decimal (n : Nat) : List Char := Nat.toDigits 10 n

theorem decimal_inj {m n : Nat} (h : decimal m = decimal n) : m = n := by
  have hread := congrArg (fun digits => Nat.ofDigitChars 10 digits 0) h
  simpa [decimal] using hread

theorem not_mem_decimal {n : Nat} {c : Char} (h : c.isDigit = false) : c ∉ decimal n := by
  intro hmem
  rw [Nat.isDigit_of_mem_toDigits (by simp) (by simp) hmem] at h
  cases h

/-- Numbers in decimal with a separator after each. -/
def separated (sep : Char) : List Nat → List Char
  | [] => []
  | [n] => decimal n
  | n :: rest => decimal n ++ sep :: separated sep rest

/-- As many numbers can be read back off their text. -/
theorem separated_inj {sep : Char} (hsep : sep.isDigit = false) {xs ys : List Nat}
    (hlength : xs.length = ys.length) (h : separated sep xs = separated sep ys) : xs = ys := by
  induction xs generalizing ys with
  | nil => rw [List.length_eq_zero_iff.mp hlength.symm]
  | cons x xs ih =>
    cases ys with
    | nil => cases hlength
    | cons y ys =>
      cases xs with
      | nil =>
        have hys : ys = [] := by simpa using hlength.symm
        subst hys
        rw [decimal_inj h]
      | cons x' xs =>
        cases ys with
        | nil => simp at hlength
        | cons y' ys =>
          -- the first separator ends the first number
          have hsplit : decimal x ++ sep :: separated sep (x' :: xs) =
              decimal y ++ sep :: separated sep (y' :: ys) := h
          obtain ⟨hx, hrest⟩ := (Text.append_cons_inj_of_first (not_mem_decimal hsep)
            (not_mem_decimal hsep)).mp hsplit
          rw [decimal_inj hx, ih (by simpa using hlength) hrest]

/-- Nothing but digits and separators is written. -/
theorem mem_separated {sep c : Char} {ns : List Nat} (h : c ∈ separated sep ns) :
    c.isDigit = true ∨ c = sep := by
  have hdecimal : ∀ n, c ∈ decimal n → c.isDigit = true := by
    intro n hmem
    by_contra hnot
    exact not_mem_decimal (by simpa using hnot) hmem
  induction ns with
  | nil => simp [separated] at h
  | cons n rest ih =>
    cases rest with
    | nil => exact .inl (hdecimal n h)
    | cons next rest =>
      rcases List.mem_append.mp h with hdigit | hlater
      · exact .inl (hdecimal n hdigit)
      · rcases List.mem_cons.mp hlater with hsep | hmem
        · exact .inr hsep
        · exact ih hmem

namespace Crates

/-- The numbers that an address is written with. -/
def groups : IpAddr → List Nat
  | .v4 bits => [bits.toNat / 2 ^ 24, bits.toNat / 2 ^ 16 % 2 ^ 8, bits.toNat / 2 ^ 8 % 2 ^ 8,
      bits.toNat % 2 ^ 8]
  | .v6 bits => [bits.toNat / 2 ^ 64, bits.toNat % 2 ^ 64]

/-- Dotted numbers for IPv4. The examples have no other addresses, and what is written for
IPv6 is only told apart. -/
def spelledIp (ip : IpAddr) : String :=
  match ip with
  | .v4 _ => String.ofList (separated '.' (groups ip))
  | .v6 _ => String.ofList (separated ':' (groups ip))

/-- No address is written in both ways. -/
theorem separated_ne {ns ms : List Nat} (hms : 1 < ms.length) :
    separated '.' ns ≠ separated ':' ms := by
  intro hsame
  match ms, hms with
  | m :: m' :: rest, _ =>
    have hcolon : ':' ∈ separated ':' (m :: m' :: rest) := by simp [separated]
    rw [← hsame] at hcolon
    have hone := mem_separated hcolon
    simp at hone

theorem spelledIp_inj : Function.Injective spelledIp := by
  intro a b h
  have hdot : ('.').isDigit = false := rfl
  have hcolon : (':').isDigit = false := rfl
  cases a with
  | v4 bits =>
    cases b with
    | v4 bits' =>
      have htext : separated '.' (groups (.v4 bits)) = separated '.' (groups (.v4 bits')) :=
        String.ofList_injective h
      have hlength : (groups (.v4 bits)).length = (groups (.v4 bits')).length := rfl
      have hgroups := separated_inj hdot hlength htext
      simp only [groups, List.cons.injEq, and_true] at hgroups
      congr 1
      apply BitVec.eq_of_toNat_eq
      omega
    | v6 bits' =>
      -- a text with dots has no colons
      exact absurd (String.ofList_injective h) (separated_ne (by simp [groups]))
  | v6 bits =>
    cases b with
    | v4 bits' => exact absurd (String.ofList_injective h).symm (separated_ne (by simp [groups]))
    | v6 bits' =>
      have htext : separated ':' (groups (.v6 bits)) = separated ':' (groups (.v6 bits')) :=
        String.ofList_injective h
      have hlength : (groups (.v6 bits)).length = (groups (.v6 bits')).length := rfl
      have hgroups := separated_inj hcolon hlength htext
      simp only [groups, List.cons.injEq, and_true] at hgroups
      congr 1
      apply BitVec.eq_of_toNat_eq
      omega

/-- The small instance with these texts. -/
def spelled (documents : List (String × Json)) : Crates :=
  { small documents with ipToString := spelledIp }

theorem spelled_tellsApart (documents : List (String × Json)) : (spelled documents).TellsApart :=
  spelledIp_inj

example : (spelled []).ipToString (.v4 0xc6336407) = "198.51.100.7" := by decide

end Crates

end AntelopeFirewall
