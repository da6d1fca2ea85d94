namespace ChatRelay.Text

/-- The characters with the Unicode property `White_Space`. -/
def isBlank (c : Char) : Bool :=
  let n := c.toNat
  (0x9 ≤ n && n ≤ 0xD) || n == 0x20 || n == 0x85 || n == 0xA0 || n == 0x1680 ||
    (0x2000 ≤ n && n ≤ 0x200A) || n == 0x2028 || n == 0x2029 || n == 0x202F || n == 0x205F || n == 0x3000

def trimBlanks (text : List Char) : List Char :=
  ((text.dropWhile isBlank).reverse.dropWhile isBlank).reverse

def trim (text : String) : String :=
  String.ofList (trimBlanks text.toList)

/-- The pieces between separators, one more than there are separators. -/
def pieces (separator : Char) : List Char → List (List Char)
  | [] => [[]]
  | c :: rest =>
    if c = separator then [] :: pieces separator rest
    else match pieces separator rest with
      | [] => [[c]]
      | first :: others => (c :: first) :: others

theorem pieces_ne_nil (separator : Char) (text : List Char) : pieces separator text ≠ [] := by
  cases text with
  | nil => simp [pieces]
  | cons c rest =>
    rw [pieces]
    split
    · simp
    · split <;> simp

theorem intercalate_pieces (separator : Char) (text : List Char) :
    [separator].intercalate (pieces separator text) = text := by
  induction text with
  | nil => simp [pieces]
  | cons c rest ih =>
    rw [pieces]
    cases parts : pieces separator rest with
    | nil => exact absurd parts (pieces_ne_nil separator rest)
    | cons first others =>
      rw [parts] at ih
      by_cases same : c = separator
      · simp [same, ← ih, List.intercalate]
      · cases others <;> simp_all [List.intercalate]

def words (text : List Char) : List (List Char) :=
  (text.splitBy fun first second => isBlank first == isBlank second).filter fun word => !word.any isBlank

/-- What stands before the first line feed, or the whole text. -/
def firstLine (text : List Char) : List Char :=
  text.takeWhile (· ≠ '\n')

end ChatRelay.Text
