import FormatSettings.Proofs.Text.Decimal
import FormatSettings.Proofs.Toml.Word

namespace FormatSettings.Toml

theorem isBareKeyChar_of_mem_decimal {n : Nat} {c : Char} (h : c ∈ Text.decimal n) :
    isBareKeyChar c = true :=
  isBareKeyChar_of_isDigit (Text.isDigit_of_mem_decimal h)

def flagChars (b : Bool) : List Char :=
  if b then ['t', 'r', 'u', 'e'] else ['f', 'a', 'l', 's', 'e']

theorem isBareKeyChar_of_mem_flagChars {b : Bool} :
    ∀ c ∈ flagChars b, isBareKeyChar c = true := by
  cases b with
  | true => exact List.all_eq_true.mp (by decide)
  | false => exact List.all_eq_true.mp (by decide)

inductive Datum
  | flag (b : Bool)
  | number (n : Nat) (isWithin : Text.withinDigitLimit (.ofNat n) = true)
  | word (w : Word)
  | words (ws : List Word)

namespace Datum

def value : Datum → Value
  | .flag b => .bool b
  | .number n _ => .int (.ofNat n)
  | .word w => .text w.text
  | .words ws => .list (ws.map fun w => .text w.text)

def chars : Datum → List Char
  | .flag b => flagChars b
  | .number n _ => Text.decimal n
  | .word w => w.quoted
  | .words ws => writeArray (ws.map Word.quoted)

end Datum

theorem writeItems_words (ws : List Word) :
    writeItems (ws.map fun w => .text w.text) = .ok (ws.map Word.quoted) := by
  induction ws with
  | nil => simp [writeItems]
  | cons w rest ih =>
    simp only [List.map_cons, writeItems, writeValue, writeText_word, ih]
    rfl

theorem writeValue_datum (d : Datum) : writeValue d.value = .ok d.chars := by
  cases d with
  | flag b => simp [Datum.value, Datum.chars, flagChars, writeValue]
  | number n h =>
    simp only [Datum.value, Datum.chars, writeValue, writeInt, h, ↓reduceIte]
    rfl
  | word w => simp only [Datum.value, Datum.chars, writeValue, writeText_word]
  | words ws =>
    simp only [Datum.value, Datum.chars, writeValue, writeItems_words]
    rfl

end FormatSettings.Toml
