/-!
# Database faults

Why a database cannot be opened, or refuses a statement.
-/

namespace PerfLedger

/-- Why a database cannot be opened or refuses a statement. -/
inductive DatabaseFault where
  /-- There is no file that could be opened. -/
  | cannotOpen
  /-- The file holds something else. -/
  | notDatabase
  /-- The file is no longer at its path. -/
  | readOnly
  /-- The last number for a row has been given. -/
  | full
  /-- A number for a row is no integer. -/
  | mismatch
  | notNull (table column : String)
  | unique (table column : String)
  | foreignKey
  | noTable (table : String)
  /-- A parameter is an integer outside the range of 64 bits. -/
  | integerTooLarge
  /-- A parameter is of a kind that no cell can hold. -/
  | unsupported (parameter : Nat) (kind : String)
  /-- A parameter is a text with half a surrogate pair in it. -/
  | notUnicode
  /-- A cell that is fetched holds bytes that are no text. -/
  | undecodable (column : String) (bytes : List UInt8)
  /-- The connection refuses to be closed. -/
  | closeFailed
  /-- A failure of the system below, in its own words. -/
  | system (message : String)
  deriving DecidableEq

/-- What is reported of a cell that is no text. Bytes that are not ASCII have a sign in their place,
the text ends at the first zero, and the whole at its length. -/
def undecodableText (column : String) (bs : List UInt8) : String :=
  let sign (b : UInt8) : Char := if b < 0x80 then Char.ofNat b.toNat else '\ufffd'
  let text := ("Could not decode to UTF-8 column '" ++ column ++ "' with text '").toList ++
    (bs.takeWhile (· != 0)).map sign ++ ['\'']
  String.ofList (text.take 198)

/-- What is reported. -/
def DatabaseFault.message : DatabaseFault → String
  | .cannotOpen => "unable to open database file"
  | .notDatabase => "file is not a database"
  | .readOnly => "attempt to write a readonly database"
  | .full => "database or disk is full"
  | .mismatch => "datatype mismatch"
  | .notNull t c => "NOT NULL constraint failed: " ++ t ++ "." ++ c
  | .unique t c => "UNIQUE constraint failed: " ++ t ++ "." ++ c
  | .foreignKey => "FOREIGN KEY constraint failed"
  | .noTable t => "no such table: " ++ t
  | .integerTooLarge => "Python int too large to convert to SQLite INTEGER"
  | .unsupported n k =>
    "Error binding parameter " ++ toString n ++ ": type '" ++ k ++ "' is not supported"
  | .notUnicode => "surrogates not allowed"
  | .undecodable c bs => undecodableText c bs
  | .closeFailed => "close failed"
  | .system m => m

end PerfLedger
