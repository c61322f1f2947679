import FeatureAtlas.Json.Printer
import FeatureAtlas.Json.Reader
import Mathlib.Data.List.Basic

/-!
# Reading what was written

A value is read back from its text, in either layout. The layouts differ in blanks only: both are
the spaced form of the value, with the blanks of a `Layout` at the start of a line and behind a
colon. Reading drops the blanks and cuts the rest into the tokens of the value, and putting these
together again gives the value.
-/

namespace FeatureAtlas.Json

/-! ## The spaced form -/

/-- The blanks at the start of a line at some depth, and those behind a colon. -/
structure Layout where
  lineStart : Nat → List Char
  space : List Char
  lineStart_blank : ∀ depth, ∀ c ∈ lineStart depth, c = ' ' ∨ c = '\n'
  space_blank : ∀ c ∈ space, c = ' ' ∨ c = '\n'

/-- The layout of `compact`, without any blanks. -/
def Layout.compact : Layout where
  lineStart _ := []
  space := []
  lineStart_blank := by simp
  space_blank := by simp

/-- The layout of `pretty`. -/
def Layout.pretty : Layout where
  lineStart depth := '\n' :: List.replicate (2 * depth) ' '
  space := [' ']
  lineStart_blank depth c hc := by
    rcases List.mem_cons.1 hc with rfl | hc
    · exact .inr rfl
    · exact .inl (List.eq_of_mem_replicate hc)
  space_blank := by simp

mutual

/-- The characters of a value that starts at the given depth. -/
def spaced (l : Layout) (depth : Nat) : Json → List Char
  | .arr (j :: js) =>
    '[' :: l.lineStart (depth + 1) ++ spaced l (depth + 1) j ++ spacedItems l (depth + 1) js
      ++ l.lineStart depth ++ [']']
  | .obj ((name, j) :: fields) =>
    '\x7b' :: l.lineStart (depth + 1) ++ (escape name).toList ++ ':' :: l.space
      ++ spaced l (depth + 1) j ++ spacedFields l (depth + 1) fields
      ++ l.lineStart depth ++ ['\x7d']
  | .arr [] => (leaf (.arr [])).toList
  | .obj [] => (leaf (.obj [])).toList
  | .null => (leaf .null).toList
  | .bool b => (leaf (.bool b)).toList
  | .num n => (leaf (.num n)).toList
  | .str s => (leaf (.str s)).toList

/-- The characters of the items after the first. -/
def spacedItems (l : Layout) (depth : Nat) : List Json → List Char
  | [] => []
  | j :: js => ',' :: l.lineStart depth ++ spaced l depth j ++ spacedItems l depth js

/-- The characters of the fields after the first. -/
def spacedFields (l : Layout) (depth : Nat) : List (String × Json) → List Char
  | [] => []
  | (name, j) :: fields =>
    ',' :: l.lineStart depth ++ (escape name).toList ++ ':' :: l.space ++ spaced l depth j
      ++ spacedFields l depth fields

end

mutual

theorem flatMap_compactParts (depth : Nat) (j : Json) :
    (compactParts j).flatMap String.toList = spaced .compact depth j := by
  cases j with
  | null | bool b | num n | str s => simp [compactParts, spaced]
  | arr items =>
    cases items with
    | nil => simp [compactParts, spaced, leaf]
    | cons j js =>
      simp [compactParts, spaced, Layout.compact, flatMap_compactParts (depth + 1) j,
        flatMap_compactItems (depth + 1) js]
  | obj fields =>
    cases fields with
    | nil => simp [compactParts, spaced, leaf]
    | cons field fields =>
      obtain ⟨name, j⟩ := field
      simp [compactParts, spaced, Layout.compact, flatMap_compactParts (depth + 1) j,
        flatMap_compactFields (depth + 1) fields]
termination_by sizeOf j

theorem flatMap_compactItems (depth : Nat) (js : List Json) :
    (compactItems js).flatMap String.toList = spacedItems .compact depth js := by
  cases js with
  | nil => rfl
  | cons j js =>
    simp [compactItems, spacedItems, Layout.compact, flatMap_compactParts depth j,
      flatMap_compactItems depth js]
termination_by sizeOf js

theorem flatMap_compactFields (depth : Nat) (fields : List (String × Json)) :
    (compactFields fields).flatMap String.toList = spacedFields .compact depth fields := by
  cases fields with
  | nil => rfl
  | cons field fields =>
    obtain ⟨name, j⟩ := field
    simp [compactFields, spacedFields, Layout.compact, flatMap_compactParts depth j,
      flatMap_compactFields depth fields]
termination_by sizeOf fields

end

mutual

theorem flatMap_prettyParts (depth : Nat) (j : Json) :
    (prettyParts depth j).flatMap String.toList = spaced .pretty depth j := by
  cases j with
  | null | bool b | num n | str s => simp [prettyParts, spaced]
  | arr items =>
    cases items with
    | nil => simp [prettyParts, spaced, leaf]
    | cons j js =>
      simp [prettyParts, spaced, Layout.pretty, newLine, flatMap_prettyParts (depth + 1) j,
        flatMap_prettyItems (depth + 1) js]
  | obj fields =>
    cases fields with
    | nil => simp [prettyParts, spaced, leaf]
    | cons field fields =>
      obtain ⟨name, j⟩ := field
      simp [prettyParts, spaced, Layout.pretty, newLine, flatMap_prettyParts (depth + 1) j,
        flatMap_prettyFields (depth + 1) fields]
termination_by sizeOf j

theorem flatMap_prettyItems (depth : Nat) (js : List Json) :
    (prettyItems depth js).flatMap String.toList = spacedItems .pretty depth js := by
  cases js with
  | nil => rfl
  | cons j js =>
    simp [prettyItems, spacedItems, Layout.pretty, newLine, flatMap_prettyParts depth j,
      flatMap_prettyItems depth js]
termination_by sizeOf js

theorem flatMap_prettyFields (depth : Nat) (fields : List (String × Json)) :
    (prettyFields depth fields).flatMap String.toList = spacedFields .pretty depth fields := by
  cases fields with
  | nil => rfl
  | cons field fields =>
    obtain ⟨name, j⟩ := field
    simp [prettyFields, spacedFields, Layout.pretty, newLine, flatMap_prettyParts depth j,
      flatMap_prettyFields depth fields]
termination_by sizeOf fields

end

mutual

/-- The tokens of a value. -/
def tokens : Json → List Token
  | .arr (j :: js) => .openArray :: tokens j ++ itemTokens js ++ [.closeArray]
  | .obj ((name, j) :: fields) =>
    .openObject :: .value (.str name) :: .colon :: tokens j ++ fieldTokens fields ++ [.closeObject]
  | .arr [] => [.openArray, .closeArray]
  | .obj [] => [.openObject, .closeObject]
  | .null => [.value .null]
  | .bool b => [.value (.bool b)]
  | .num n => [.value (.num n)]
  | .str s => [.value (.str s)]

/-- The tokens of the items after the first. -/
def itemTokens : List Json → List Token
  | [] => []
  | j :: js => .comma :: tokens j ++ itemTokens js

/-- The tokens of the fields after the first. -/
def fieldTokens : List (String × Json) → List Token
  | [] => []
  | (name, j) :: fields => .comma :: .value (.str name) :: .colon :: tokens j ++ fieldTokens fields

end

/-- Blanks are dropped. -/
theorem tokens?_append_of_blank {blanks : List Char} (h : ∀ c ∈ blanks, c = ' ' ∨ c = '\n')
    (rest : List Char) : tokens? (blanks ++ rest) = tokens? rest := by
  induction blanks with
  | nil => rfl
  | cons c blanks ih =>
    obtain ⟨hc, hblanks⟩ := List.forall_mem_cons.1 h
    rw [List.cons_append]
    rcases hc with rfl | rfl <;> rw [tokens?] <;> simp [ih hblanks]

/-! ### Texts -/

/-- Two hexadecimal digits are enough for a control character. -/
theorem toDigits_control : ∀ n : Fin 0x20,
    (if n.val < 0x10 then '0' :: Nat.toDigits 16 n else Nat.toDigits 16 n) =
        [Nat.digitChar (n / 16), Nat.digitChar (n % 16)] ∧
      hex4? ['0', '0', Nat.digitChar (n / 16), Nat.digitChar (n % 16)] = some n.val := by
  decide

/-- A control character that is escaped by its number is read as itself. -/
theorem scanText_control (read rest : List Char) {c : Char} (hc : c.toNat < 0x20) :
    scanText read ('\\' :: 'u' :: '0' :: '0' :: Nat.digitChar (c.toNat / 16) ::
      Nat.digitChar (c.toNat % 16) :: rest) = scanText (c :: read) rest := by
  obtain ⟨-, hhex⟩ := toDigits_control ⟨c.toNat, hc⟩
  dsimp only at hhex
  rw [scanText, hhex]
  dsimp only
  rw [if_neg (by omega), if_neg (by omega), Char.ofNat_toNat]

/-- An escaped character is read as itself. -/
theorem scanText_escapeChar (read : List Char) (c : Char) (rest : List Char) :
    scanText read (escapeChar c ++ rest) = scanText (c :: read) rest := by
  fun_cases escapeChar c
  case case8 hsmall =>
    have hcontrol : c.toNat < 0x20 := by omega
    obtain ⟨hdigits, -⟩ := toDigits_control ⟨c.toNat, hcontrol⟩
    rw [if_pos hsmall] at hdigits
    have hescape : ['\\', 'u', '0', '0', '0'] ++ Nat.toDigits 16 c.toNat =
        ['\\', 'u', '0', '0'] ++ ('0' :: Nat.toDigits 16 c.toNat) := rfl
    rw [hescape, hdigits]
    exact scanText_control read rest hcontrol
  case case9 hlarge hcontrol =>
    obtain ⟨hdigits, -⟩ := toDigits_control ⟨c.toNat, hcontrol⟩
    rw [if_neg hlarge] at hdigits
    dsimp only at hdigits
    rw [hdigits]
    exact scanText_control read rest hcontrol
  case case10 hquote hslash _ _ _ _ _ _ hplain =>
    rw [List.singleton_append, scanText, if_neg hplain]
    · exact hquote
    · exact fun _ _ _ _ _ h => absurd h hslash
    · exact fun _ _ h => absurd h hslash
  all_goals rfl

/-- An escaped text is read up to its closing quote. -/
theorem scanText_flatMap_escapeChar (read cs rest : List Char) :
    scanText read (cs.flatMap escapeChar ++ '"' :: rest) =
      some (String.ofList (read.reverse ++ cs), rest) := by
  induction cs generalizing read with
  | nil => simp [scanText]
  | cons c cs ih =>
    rw [List.flatMap_cons, List.append_assoc, scanText_escapeChar, ih]
    simp

theorem tokens?_escape (s : String) (rest : List Char) :
    tokens? ((escape s).toList ++ rest) = (tokens? rest).map (.value (.str s) :: ·) := by
  have hscan := scanText_flatMap_escapeChar [] s.toList rest
  have htext : (escape s).toList ++ rest = '"' :: (s.toList.flatMap escapeChar ++ '"' :: rest) := by
    simp [escape]
  rw [htext, tokens?]
  split
  · next read after h =>
    rw [hscan] at h
    cases h
    simp
  · next h =>
    rw [hscan] at h
    cases h

/-! ### Numbers -/

/-- Digits are read up to what is no digit. -/
theorem scanNumber_append {digits rest : List Char} (h : ∀ c ∈ digits, c.isDigit = true)
    (hrest : ∀ c ∈ rest.head?, c.isDigit = false) (n : Nat) :
    scanNumber n (digits ++ rest) = (Nat.ofDigitChars 10 digits n, rest) := by
  induction digits generalizing n with
  | nil =>
    cases rest with
    | nil => rfl
    | cons c rest => simp [scanNumber, hrest c rfl]
  | cons c digits ih =>
    obtain ⟨hc, hdigits⟩ := List.forall_mem_cons.1 h
    rw [List.cons_append, scanNumber, if_pos hc, ih hdigits, Nat.ofDigitChars_cons]
    rfl

theorem tokens?_digits {c : Char} {digits rest : List Char}
    (h : ∀ d ∈ c :: digits, d.isDigit = true) (hrest : ∀ d ∈ rest.head?, d.isDigit = false) :
    tokens? (c :: digits ++ rest) =
      (tokens? rest).map (.value (.num (Nat.ofDigitChars 10 (c :: digits) 0)) :: ·) := by
  obtain ⟨hc, hdigits⟩ := List.forall_mem_cons.1 h
  rw [List.cons_append, tokens?]
  · simp [hc, scanNumber_append hdigits hrest, Nat.ofDigitChars_cons, digitValue]
  -- No digit is any of the characters that come first.
  all_goals
    intros
    subst_vars
    exact absurd hc (by decide)

theorem tokens?_number (n : Nat) {rest : List Char} (hrest : ∀ c ∈ rest.head?, c.isDigit = false) :
    tokens? ((toString n).toList ++ rest) = (tokens? rest).map (.value (.num n) :: ·) := by
  have hdigits : ∀ c ∈ Nat.toDigits 10 n, c.isDigit = true :=
    fun c hc => Nat.isDigit_of_mem_toDigits (by decide) (Nat.le_refl 10) hc
  have hvalue := Nat.ofDigitChars_toDigits (n := n) (by decide) (Nat.le_refl 10)
  rw [Nat.toString_eq_ofList_toDigits, String.toList_ofList]
  cases htext : Nat.toDigits 10 n with
  | nil => exact absurd htext Nat.toDigits_ne_nil
  | cons c digits =>
    rw [htext] at hdigits hvalue
    rw [tokens?_digits hdigits hrest, hvalue]

/-! ### Values -/

theorem head?_spacedItems (l : Layout) (depth : Nat) (js : List Json) {rest : List Char}
    (hrest : ∀ c ∈ rest.head?, c.isDigit = false) :
    ∀ c ∈ (spacedItems l depth js ++ rest).head?, c.isDigit = false := by
  cases js with
  | nil => exact hrest
  | cons j js => simp [spacedItems]

theorem head?_spacedFields (l : Layout) (depth : Nat) (fields : List (String × Json))
    {rest : List Char} (hrest : ∀ c ∈ rest.head?, c.isDigit = false) :
    ∀ c ∈ (spacedFields l depth fields ++ rest).head?, c.isDigit = false := by
  cases fields with
  | nil => exact hrest
  | cons field fields => simp [spacedFields]

theorem head?_lineStart (l : Layout) (depth : Nat) {rest : List Char}
    (hrest : ∀ c ∈ rest.head?, c.isDigit = false) :
    ∀ c ∈ (l.lineStart depth ++ rest).head?, c.isDigit = false := by
  have hblank := l.lineStart_blank depth
  cases hstart : l.lineStart depth with
  | nil => exact hrest
  | cons c blanks =>
    rw [hstart] at hblank
    rcases hblank c List.mem_cons_self with rfl | rfl <;> simp

mutual

/-- A value is cut into its tokens, whatever follows it, unless that starts with a digit. -/
theorem tokens?_spaced (l : Layout) (depth : Nat) (j : Json) {rest : List Char}
    (hrest : ∀ c ∈ rest.head?, c.isDigit = false) :
    tokens? (spaced l depth j ++ rest) = (tokens? rest).map (tokens j ++ ·) := by
  cases j with
  | null =>
    change tokens? ('n' :: 'u' :: 'l' :: 'l' :: rest) = _
    rw [tokens?]
    rfl
  | bool b =>
    cases b with
    | true =>
      change tokens? ('t' :: 'r' :: 'u' :: 'e' :: rest) = _
      rw [tokens?]
      rfl
    | false =>
      change tokens? ('f' :: 'a' :: 'l' :: 's' :: 'e' :: rest) = _
      rw [tokens?]
      rfl
  | num n => exact tokens?_number n hrest
  | str s => exact tokens?_escape s rest
  | arr items =>
    cases items with
    | nil =>
      change tokens? ('[' :: ']' :: rest) = _
      rw [tokens?, tokens?]
      simp [tokens, Function.comp_def]
    | cons j js =>
      have hclose : ∀ c ∈ (l.lineStart depth ++ ']' :: rest).head?, c.isDigit = false :=
        head?_lineStart l depth (by simp)
      rw [spaced]
      simp only [List.cons_append, List.append_assoc, List.nil_append]
      rw [tokens?, tokens?_append_of_blank (l.lineStart_blank _),
        tokens?_spaced l _ j (head?_spacedItems l _ js hclose), tokens?_spacedItems l _ js hclose,
        tokens?_append_of_blank (l.lineStart_blank _), tokens?]
      simp [tokens, Function.comp_def]
  | obj fields =>
    cases fields with
    | nil =>
      change tokens? ('\x7b' :: '\x7d' :: rest) = _
      rw [tokens?, tokens?]
      simp [tokens, Function.comp_def]
    | cons field fields =>
      obtain ⟨name, j⟩ := field
      have hclose : ∀ c ∈ (l.lineStart depth ++ '\x7d' :: rest).head?, c.isDigit = false :=
        head?_lineStart l depth (by simp)
      rw [spaced]
      simp only [List.cons_append, List.append_assoc, List.nil_append]
      rw [tokens?, tokens?_append_of_blank (l.lineStart_blank _), tokens?_escape, tokens?,
        tokens?_append_of_blank l.space_blank,
        tokens?_spaced l _ j (head?_spacedFields l _ fields hclose),
        tokens?_spacedFields l _ fields hclose, tokens?_append_of_blank (l.lineStart_blank _),
        tokens?]
      simp [tokens, Function.comp_def]
termination_by sizeOf j

theorem tokens?_spacedItems (l : Layout) (depth : Nat) (js : List Json) {rest : List Char}
    (hrest : ∀ c ∈ rest.head?, c.isDigit = false) :
    tokens? (spacedItems l depth js ++ rest) = (tokens? rest).map (itemTokens js ++ ·) := by
  cases js with
  | nil => simp [spacedItems, itemTokens]
  | cons j js =>
    rw [spacedItems]
    simp only [List.cons_append, List.append_assoc]
    rw [tokens?, tokens?_append_of_blank (l.lineStart_blank _),
      tokens?_spaced l _ j (head?_spacedItems l _ js hrest), tokens?_spacedItems l _ js hrest]
    simp [itemTokens, Function.comp_def]
termination_by sizeOf js

theorem tokens?_spacedFields (l : Layout) (depth : Nat) (fields : List (String × Json))
    {rest : List Char} (hrest : ∀ c ∈ rest.head?, c.isDigit = false) :
    tokens? (spacedFields l depth fields ++ rest) =
      (tokens? rest).map (fieldTokens fields ++ ·) := by
  cases fields with
  | nil => simp [spacedFields, fieldTokens]
  | cons field fields =>
    obtain ⟨name, j⟩ := field
    rw [spacedFields]
    simp only [List.cons_append, List.append_assoc]
    rw [tokens?, tokens?_append_of_blank (l.lineStart_blank _), tokens?_escape, tokens?,
      tokens?_append_of_blank l.space_blank,
      tokens?_spaced l _ j (head?_spacedFields l _ fields hrest),
      tokens?_spacedFields l _ fields hrest]
    simp [fieldTokens, Function.comp_def]
termination_by sizeOf fields

end

/-! ## Putting tokens together -/

namespace Reading

/-- The frames that a value can be put in: an object needs the name of the field first. -/
def TakeValue : List Frame → Prop
  | .object _ :: _ => False
  | _ => True

section

variable {frames : List Frame} {e : Expected} (items : List Json) (fields : List (String × Json))

theorem step_value (hframes : TakeValue frames) (he : e = .value ∨ e = .valueOrClose) (j : Json) :
    step ⟨frames, e, .null⟩ (.value j) = finish frames j := by
  rcases frames with - | ⟨⟨items⟩ | ⟨fields⟩ | ⟨fields, name⟩, frames⟩
  · simp [step, awaitsValue, he]
  · simp [step, awaitsValue, he]
  · cases hframes
  · simp [step, awaitsValue, he]

theorem step_openArray (he : e = .value ∨ e = .valueOrClose) :
    step ⟨frames, e, .null⟩ .openArray = some ⟨.array [] :: frames, .valueOrClose, .null⟩ :=
  if_pos he

theorem step_openObject (he : e = .value ∨ e = .valueOrClose) :
    step ⟨frames, e, .null⟩ .openObject = some ⟨.object [] :: frames, .nameOrClose, .null⟩ :=
  if_pos he

theorem step_closeArray (he : e = .next ∨ e = .valueOrClose) :
    step ⟨.array items :: frames, e, .null⟩ .closeArray = finish frames (.arr items.reverse) :=
  if_pos he

theorem step_closeObject (he : e = .next ∨ e = .nameOrClose) :
    step ⟨.object fields :: frames, e, .null⟩ .closeObject = finish frames (.obj fields.reverse) :=
  if_pos he

theorem step_arrayComma : step ⟨.array items :: frames, .next, .null⟩ .comma =
    some ⟨.array items :: frames, .value, .null⟩ := rfl

theorem step_objectComma : step ⟨.object fields :: frames, .next, .null⟩ .comma =
    some ⟨.object fields :: frames, .name, .null⟩ := rfl

theorem step_name (he : e = .name ∨ e = .nameOrClose) (name : String) :
    step ⟨.object fields :: frames, e, .null⟩ (.value (.str name)) =
      some ⟨.field fields name :: frames, .colon, .null⟩ :=
  if_pos he

theorem step_colon : step ⟨frames, .colon, .null⟩ .colon = some ⟨frames, .value, .null⟩ := rfl

theorem finish_array (j : Json) : finish (.array items :: frames) j =
    some ⟨.array (j :: items) :: frames, .next, .null⟩ := rfl

theorem finish_field (name : String) (j : Json) : finish (.field fields name :: frames) j =
    some ⟨.object ((name, j) :: fields) :: frames, .next, .null⟩ := rfl

end

mutual

/-- The tokens of a value are put together to the value, wherever one may come next. -/
theorem foldlM_tokens (frames : List Frame) (hframes : TakeValue frames) {e : Expected}
    (he : e = .value ∨ e = .valueOrClose) (j : Json) :
    (tokens j).foldlM step ⟨frames, e, .null⟩ = finish frames j := by
  cases j with
  | null | bool b | num n | str s => simp [tokens, step_value hframes he]
  | arr items =>
    cases items with
    | nil => simp [tokens, step_openArray he, step_closeArray]
    | cons j js =>
      have hfirst := foldlM_tokens (.array [] :: frames) trivial (.inr rfl) j
      have hrest := foldlM_itemTokens frames [j] js
      simp [tokens, step_openArray he, hfirst, finish_array, hrest, step_closeArray]
  | obj fields =>
    cases fields with
    | nil => simp [tokens, step_openObject he, step_closeObject]
    | cons field fields =>
      obtain ⟨name, j⟩ := field
      have hfirst := foldlM_tokens (.field [] name :: frames) trivial (.inl rfl) j
      have hrest := foldlM_fieldTokens frames [(name, j)] fields
      simp [tokens, step_openObject he, step_name, step_colon, hfirst, finish_field, hrest,
        step_closeObject]
termination_by sizeOf j

theorem foldlM_itemTokens (frames : List Frame) (items js : List Json) :
    (itemTokens js).foldlM step ⟨.array items :: frames, .next, .null⟩ =
      some ⟨.array (js.reverse ++ items) :: frames, .next, .null⟩ := by
  cases js with
  | nil => rfl
  | cons j js =>
    have hfirst := foldlM_tokens (.array items :: frames) trivial (.inl rfl) j
    have hrest := foldlM_itemTokens frames (j :: items) js
    simp [itemTokens, step_arrayComma, hfirst, finish_array, hrest]
termination_by sizeOf js

theorem foldlM_fieldTokens (frames : List Frame) (done fields : List (String × Json)) :
    (fieldTokens fields).foldlM step ⟨.object done :: frames, .next, .null⟩ =
      some ⟨.object (fields.reverse ++ done) :: frames, .next, .null⟩ := by
  cases fields with
  | nil => rfl
  | cons field fields =>
    obtain ⟨name, j⟩ := field
    have hfirst := foldlM_tokens (.field done name :: frames) trivial (.inl rfl) j
    have hrest := foldlM_fieldTokens frames ((name, j) :: done) fields
    simp [fieldTokens, step_objectComma, step_name, step_colon, hfirst, finish_field, hrest]
termination_by sizeOf fields

end

end Reading

end FeatureAtlas.Json
