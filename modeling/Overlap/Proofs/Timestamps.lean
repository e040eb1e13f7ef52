/-
  The timestamps that a clock gives.

  An `Instant` is a date and a time of day that exist, in a year of four digits.
  Its text is a timestamp (`check_text`), whatever the instant.
-/
import Overlap.Store.Timestamp

namespace Overlap.Store

/-- A date and a time of day, to the second. -/
structure Instant where
  year : Nat
  month : Nat
  day : Nat
  hour : Nat
  minute : Nat
  second : Nat
  year_lt : year < 10000 := by decide
  month_mem : 1 ≤ month ∧ month ≤ 12 := by decide
  day_mem : 1 ≤ day ∧ day ≤ Timestamp.daysIn year month := by decide
  hour_lt : hour < 24 := by decide
  minute_lt : minute < 60 := by decide
  second_lt : second < 60 := by decide

namespace Timestamp

/-! ## Digits -/

/-- A number below one hundred as two digits. -/
def twoDigits (n : Nat) : List Char := [Nat.digitChar (n / 10), Nat.digitChar (n % 10)]

theorem isDigit_digitChar {n : Nat} (hn : n < 10) : (Nat.digitChar n).isDigit = true := by
  have : ∀ n : Fin 10, (Nat.digitChar n).isDigit = true := by decide
  exact this ⟨n, hn⟩

theorem digitChar_toNat {n : Nat} (hn : n < 10) : (Nat.digitChar n).toNat - '0'.toNat = n := by
  rw [Nat.toNat_digitChar_of_lt_ten hn]
  exact Nat.add_sub_cancel_left ..

theorem all_isDigit_twoDigits {n : Nat} (hn : n < 100) : (twoDigits n).all Char.isDigit = true := by
  simp [twoDigits, isDigit_digitChar (show n / 10 < 10 by omega),
    isDigit_digitChar (show n % 10 < 10 by omega)]

theorem foldl_twoDigits {n : Nat} (hn : n < 100) (m : Nat) :
    (twoDigits n).foldl (fun n c => 10 * n + (c.toNat - '0'.toNat)) m = 100 * m + n := by
  simp only [twoDigits, List.foldl_cons, List.foldl_nil,
    digitChar_toNat (show n / 10 < 10 by omega), digitChar_toNat (show n % 10 < 10 by omega)]
  omega

/-! ## Parts of a timestamp -/

theorem year_digits {n : Nat} (hn : n < 10000) (cs : List Char) :
    year (twoDigits (n / 100) ++ twoDigits (n % 100) ++ cs) = .ok (n, cs) := by
  have hhigh : n / 100 < 100 := by omega
  have hlow : n % 100 < 100 := by omega
  have htake : (twoDigits (n / 100) ++ twoDigits (n % 100) ++ cs).take 4 =
      twoDigits (n / 100) ++ twoDigits (n % 100) := rfl
  have hvalue : digitsValue (twoDigits (n / 100) ++ twoDigits (n % 100)) = n := by
    rw [digitsValue, List.foldl_append, foldl_twoDigits hhigh, foldl_twoDigits hlow]
    omega
  unfold year
  dsimp only
  rw [htake, hvalue, List.all_append, all_isDigit_twoDigits hhigh, all_isDigit_twoDigits hlow]
  rfl

theorem number_twoDigits {n : Nat} (hn : n < 100) (part : String) (fixed : Bool) (cs : List Char) :
    number part fixed (twoDigits n ++ cs) = .ok (n, cs) := by
  have hdigits := all_isDigit_twoDigits hn
  have hvalue : digitsValue (twoDigits n) = n := by
    rw [digitsValue, foldl_twoDigits hn]
    omega
  simp only [twoDigits, List.all_cons, List.all_nil, Bool.and_true] at hdigits hvalue
  unfold number
  simp only [twoDigits, List.cons_append, List.nil_append, hdigits, hvalue, if_true]

theorem separator_cons (part : Char) (cs : List Char) : separator part (part :: cs) = .ok cs := by
  simp [separator]

theorem within_ok {what : String} {low high n : Nat} (hlow : low ≤ n) (hhigh : n ≤ high) :
    within what low high n = .ok () := by
  simp [within, hlow, hhigh]

end Timestamp

/-! ## Instants -/

namespace Instant

open Timestamp

/-- The text `2006-01-02T15:04:05Z` of an instant. -/
def text (t : Instant) : String :=
  String.ofList (twoDigits (t.year / 100) ++ twoDigits (t.year % 100) ++
    ('-' :: (twoDigits t.month ++ ('-' :: (twoDigits t.day ++ ('T' :: (twoDigits t.hour ++
    (':' :: (twoDigits t.minute ++ (':' :: (twoDigits t.second ++ ['Z'])))))))))))

/-- The text of an instant is a timestamp. -/
theorem check_text (t : Instant) : check t.text = .ok () := by
  have hmonth : t.month < 100 := by have := t.month_mem; omega
  have hday : t.day < 100 := by
    have hdays : daysIn t.year t.month ≤ 31 := by
      unfold daysIn
      repeat' split
      all_goals decide
    have := t.day_mem
    omega
  have hhour : t.hour < 100 := by have := t.hour_lt; omega
  have hminute : t.minute < 100 := by have := t.minute_lt; omega
  have hsecond : t.second < 100 := by have := t.second_lt; omega
  have hzone : zone (fraction ['Z']) = .ok [] := rfl
  unfold check text
  simp only [String.toList_ofList, year_digits t.year_lt, number_twoDigits hmonth,
    number_twoDigits hday, number_twoDigits hhour, number_twoDigits hminute,
    number_twoDigits hsecond, separator_cons, within_ok t.month_mem.1 t.month_mem.2,
    within_ok (Nat.zero_le _) (Nat.le_sub_one_of_lt t.hour_lt),
    within_ok (Nat.zero_le _) (Nat.le_sub_one_of_lt t.minute_lt),
    within_ok (Nat.zero_le _) (Nat.le_sub_one_of_lt t.second_lt), hzone, bind, Except.bind]
  exact within_ok t.day_mem.1 t.day_mem.2

end Instant

end Overlap.Store
