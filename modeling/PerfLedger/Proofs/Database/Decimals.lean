import PerfLedger.Proofs.Database.Insert
import PerfLedger.Proofs.Decimal.Fixed
import PerfLedger.Proofs.Decimal.Value
import PerfLedger.Value.Field

/-!
# Decimals in the database

A decimal is stored as its fixed form. The columns for it are declared as `DECIMAL TEXT`, which
makes them text columns (`ofType_decimalText`), so that the form is kept as it is and not as a
number (`stores_of_reference`). What is read back is the decimal with a positive exponent written
out in zeros: the same number, whose fixed form is the same again (`decimal_survives`).
-/

namespace PerfLedger

/-- The most characters that a text of the database can have. -/
def Database.textLimit : Nat := 1000000000

namespace Decimal

/-- What is promised of the decimal `d'` that is read back of `d`. -/
structure ReadsBack (d d' : Decimal) : Prop where
  negative : d'.negative = d.negative
  /-- A finite number has the same value. -/
  value : d.IsFinite → d'.IsFinite ∧ d'.toRat = d.toRat
  /-- A special number is the same in all its parts. -/
  special : ¬d.IsFinite → d' = d
  /-- Digits and exponent are the same if the exponent is not positive. -/
  digits : ∀ {s n e}, d = .finite s n e → e ≤ 0 → d' = d
  /-- It would be stored as the same text. -/
  fixed : d'.fixed = d.fixed

theorem positional_readsBack (d : Decimal) : ReadsBack d d.positional := by
  have hsame := positional_same d
  constructor
  case negative => exact hsame.negative_eq
  case value =>
    intro h
    exact ⟨hsame.symm.isFinite h, hsame.toRat_eq⟩
  case special =>
    intro h
    cases d with
    | finite s n e => exact absurd trivial h
    | infinite s => rfl
    | nan s q p => rfl
  case digits =>
    rintro s n e rfl he
    rw [positional, if_pos he]
  case fixed => exact fixed_positional d

end Decimal

/-! ## Rows -/

namespace Database

/-- The database takes an operation with the given cells and keeps it as a row of the cells that its
columns keep. -/
def Stores (db : Database) (number execution version time memory : Cell) (row : OperationRow) :
    Prop :=
  db.insertOperation number execution version time memory
      = .ok (db.withOperation row, row.number) ∧
    row.cells = List.zipWith Column.keep operationColumns [execution, version, time, memory]

/-- **A row of the table of operations has the cells that its columns keep.** It is taken if its
number is free, if there is the execution that it refers to, and if there are both measures. -/
theorem stores_of_reference {db : Database} {number execution time memory : Cell} {n id : Int}
    (version : Cell) (hn : numberAfter db.lastNumber number = .ok n)
    (hfree : db.hasOperation n = false) (hid : db.reference execution = .ok id)
    (ht : time ≠ .null) (hm : memory ≠ .null) :
    db.Stores number execution version time memory
      ⟨n, id, version.inTextColumn, time.inTextColumn, memory.inTextColumn⟩ := by
  have hinteger := (reference_eq_ok.mp hid).1
  have hexecution : execution ≠ .null := by
    rintro rfl
    exact absurd hinteger (by simp [Cell.inNumericColumn])
  constructor
  · rw [insertOperation, hn, require_eq_ok.mpr hexecution, require_eq_ok.mpr ht,
      require_eq_ok.mpr hm]
    simp only [bind, Except.bind, hfree, hid]
    rfl
  · rw [keep_operationColumns, hinteger]
    rfl

end Database

/--
**A decimal survives the database digit for digit.**

Whatever the decimal is, as long as its fixed form is not too long for a text: the columns for
decimals keep the form as it is, under whatever number the row is put in, and what is read of it is
the same number, with the same digits unless the exponent was positive.
-/
theorem decimal_survives {d : Decimal} (h : d.fixed.length ≤ Database.textLimit) :
    (∀ (db : Database) (number execution version other : Cell) (n id : Int),
      Database.numberAfter db.lastNumber number = .ok n → db.hasOperation n = false →
      db.reference execution = .ok id → other ≠ .null →
      (∃ row, db.Stores number execution version (.text d.fixed) other row ∧
        row.time = .text d.fixed) ∧
      ∃ row, db.Stores number execution version other (.text d.fixed) row ∧
        row.memory = .text d.fixed) ∧
    ∃ d', d.ReadsBack d' ∧ ∀ field, ∃ v, (Cell.text d.fixed).fetch field = .ok v ∧
      v.toDecimalField field = .ok d' := by
  have hne : Cell.text d.fixed ≠ .null := by simp
  constructor
  · intro db number execution version other n id hn hfree hid hother
    exact ⟨⟨_, Database.stores_of_reference version hn hfree hid hne hother, rfl⟩,
      _, Database.stores_of_reference version hn hfree hid hother hne, rfl⟩
  · have hlimit : (Database.textLimit : Int) ≤ Decimal.numeralMax := by decide
    have hshort : (d.fixed.length : Int) ≤ Decimal.numeralMax := by omega
    refine ⟨d.positional, d.positional_readsBack, fun field => ⟨_, rfl, ?_⟩⟩
    show (Decimal.parse d.fixed).mapError _ = _
    rw [Decimal.parse_fixed_of_length hshort]
    rfl

/-- A decimal with too many digits for the arithmetic and a positive exponent. -/
def sampleDecimal : Decimal :=
  .finite true (10 ^ 40 + 1) 3

/-- A database with one execution, to which operations can be added. -/
def sampleExecution : Database :=
  ⟨[⟨1, .text "2026-01-01 12:00:00.000000", .text "n", .text "1"⟩], [], 1⟩

theorem decimal_survives_long :
    (∃ row, sampleExecution.Stores .null (.integer 1) .null (.text sampleDecimal.fixed) (.text "0")
      row ∧ row.time = .text sampleDecimal.fixed) ∧
    ∃ d', sampleDecimal.ReadsBack d' ∧ ∀ field, ∃ v,
      (Cell.text sampleDecimal.fixed).fetch field = .ok v ∧ v.toDecimalField field = .ok d' := by
  obtain ⟨hstores, hreads⟩ := decimal_survives (d := sampleDecimal) (by decide +kernel)
  exact ⟨(hstores sampleExecution .null (.integer 1) .null (.text "0") 1 1 rfl rfl rfl
    (by simp)).1, hreads⟩

end PerfLedger
