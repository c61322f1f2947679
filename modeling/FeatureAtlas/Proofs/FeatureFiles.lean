import FeatureAtlas.Proofs.Spellings
import Mathlib.Data.List.DropRight
import Mathlib.Data.List.Induction

/-!
# The ending of feature files

Whether a path has the extension of a feature file is read off its components, then off the last dot
of a name. Here it is read off the bytes of the text: of the pieces between separators the last one
counts that is neither empty nor a dot, and it has to be longer than `.feature` and to end with it
in any ASCII case. The bytes of other characters are no ASCII, so the last bytes of a text are its
last characters if they look like ASCII. Main statement: `Path.hasFeatureExtension_exact`.
-/

namespace FeatureAtlas

open FileSystem (pathPieces)

/-! ## Bytes -/

/-- The bytes of characters in UTF-8. -/
def utf8Bytes (cs : List Char) : List UInt8 :=
  cs.flatMap String.utf8EncodeChar

/-- The bytes that a text is kept in. -/
def textBytes (text : String) : List UInt8 :=
  text.toUTF8.data.toList

theorem textBytes_eq (text : String) : textBytes text = utf8Bytes text.toList := by
  rw [textBytes, String.toUTF8, ← String.utf8Encode_toList, List.utf8Encode, List.data_toByteArray,
    utf8Bytes]

/-- A byte in ASCII lower case. -/
def lowerByte (b : UInt8) : UInt8 :=
  if 65 ≤ b ∧ b ≤ 90 then b + 32 else b

@[simp] theorem utf8Bytes_nil : utf8Bytes [] = [] := rfl

@[simp] theorem utf8Bytes_singleton (c : Char) : utf8Bytes [c] = String.utf8EncodeChar c :=
  List.flatMap_singleton _ c

@[simp] theorem utf8Bytes_append (cs ds : List Char) :
    utf8Bytes (cs ++ ds) = utf8Bytes cs ++ utf8Bytes ds :=
  List.flatMap_append

/-- There is a byte for every character at least. -/
theorem length_le_length_utf8Bytes (cs : List Char) : cs.length ≤ (utf8Bytes cs).length := by
  induction cs with
  | nil => exact Nat.le_refl _
  | cons c cs ih =>
    have hpos := Char.utf8Size_pos c
    have hlength := String.length_utf8EncodeChar c
    rw [utf8Bytes, List.flatMap_cons, ← utf8Bytes, List.length_append, List.length_cons]
    omega

theorem utf8EncodeChar_of_lt {c : Char} (h : c.toNat < 128) :
    String.utf8EncodeChar c = [c.toUInt8] := by
  have hle : c.toNat ≤ 127 := by omega
  simp only [String.utf8EncodeChar, Char.toNat_val, if_pos hle]
  rfl

/-- Every byte of any other character is beyond ASCII. -/
theorem le_of_mem_utf8EncodeChar {c : Char} (h : 128 ≤ c.toNat) :
    ∀ b ∈ String.utf8EncodeChar c, 128 ≤ b.toNat := by
  intro b hb
  have hgt : ¬c.toNat ≤ 127 := by omega
  simp only [String.utf8EncodeChar, Char.toNat_val, if_neg hgt] at hb
  split at hb
  · simp only [List.mem_cons, List.not_mem_nil, or_false] at hb
    rcases hb with rfl | rfl <;> simp only [UInt8.toNat_ofNat'] <;> omega
  · split at hb
    · simp only [List.mem_cons, List.not_mem_nil, or_false] at hb
      rcases hb with rfl | rfl | rfl <;> simp only [UInt8.toNat_ofNat'] <;> omega
    · simp only [List.mem_cons, List.not_mem_nil, or_false] at hb
      rcases hb with rfl | rfl | rfl | rfl <;> simp only [UInt8.toNat_ofNat'] <;> omega

theorem utf8Bytes_of_ascii {cs : List Char} (h : ∀ c ∈ cs, c.toNat < 128) :
    utf8Bytes cs = cs.map Char.toUInt8 := by
  induction cs with
  | nil => rfl
  | cons c cs ih =>
    obtain ⟨hc, hcs⟩ := List.forall_mem_cons.1 h
    rw [utf8Bytes, List.flatMap_cons, utf8EncodeChar_of_lt hc, ← utf8Bytes, ih hcs]
    rfl

/-- The last byte of a text belongs to its last character. -/
theorem toNat_lt_of_getLast?_utf8Bytes {cs : List Char} {c : Char} {b : UInt8}
    (h : (utf8Bytes (cs ++ [c])).getLast? = some b) (hb : b.toNat < 128) : c.toNat < 128 := by
  have hne : String.utf8EncodeChar c ≠ [] := by
    have hlength := length_le_length_utf8Bytes [c]
    rw [utf8Bytes_singleton] at hlength
    exact List.ne_nil_of_length_pos hlength
  rw [utf8Bytes_append, utf8Bytes_singleton, List.getLast?_append_of_ne_nil _ hne] at h
  by_contra hge
  have hle := le_of_mem_utf8EncodeChar (by omega) b (List.mem_of_getLast? h)
  omega

/-- Bytes at the end of a text that look like ASCII are those of its last characters. -/
theorem exists_of_utf8Bytes_eq_append {cs : List Char} {before ending : List UInt8}
    (h : utf8Bytes cs = before ++ ending) (hascii : ∀ b ∈ ending, b.toNat < 128) :
    ∃ ds es, cs = ds ++ es ∧ utf8Bytes ds = before ∧ (∀ c ∈ es, c.toNat < 128) ∧
      ending = es.map Char.toUInt8 := by
  induction cs using List.reverseRecOn generalizing ending with
  | nil =>
    obtain ⟨rfl, rfl⟩ := List.append_eq_nil_iff.1 h.symm
    exact ⟨[], [], rfl, rfl, by simp, rfl⟩
  | append_singleton cs c ih =>
    rcases List.eq_nil_or_concat' ending with rfl | ⟨ending, b, rfl⟩
    · exact ⟨cs ++ [c], [], by simp, by simpa using h, by simp, rfl⟩
    · have hlast : (utf8Bytes (cs ++ [c])).getLast? = some b := by simp [h]
      have hc : c.toNat < 128 := toNat_lt_of_getLast?_utf8Bytes hlast (hascii b (by simp))
      rw [utf8Bytes_append, utf8Bytes_singleton, utf8EncodeChar_of_lt hc, ← List.append_assoc] at h
      obtain ⟨hinit, hbyte⟩ := List.append_inj' h rfl
      obtain ⟨ds, es, rfl, hds, hes, rfl⟩ := ih hinit fun b hb => hascii b (by simp [hb])
      refine ⟨ds, es ++ [c], by simp, hds, ?_, by simp [hbyte]⟩
      exact List.forall_mem_append.2 ⟨hes, by simpa using hc⟩

theorem toNat_toUInt8 {c : Char} (h : c.toNat < 128) : c.toUInt8.toNat = c.toNat := by
  have hbyte : c.toUInt8.toNat = c.toNat % 256 := UInt32.toNat_toUInt8 c.val
  omega

/-! ## Lower case -/

/-- Both ways of ignoring case agree on ASCII. -/
theorem lowerByte_toUInt8 {c : Char} (h : c.toNat < 128) :
    lowerByte c.toUInt8 = c.toLower.toUInt8 := by
  have hall : ∀ n < 128, lowerByte (Char.ofNat n).toUInt8 = (Char.ofNat n).toLower.toUInt8 := by
    decide
  simpa using hall c.toNat h

theorem toNat_lt_of_lowerByte {b : UInt8} (h : (lowerByte b).toNat < 128) : b.toNat < 128 := by
  unfold lowerByte at h
  split at h
  · next hcase =>
    have hle : b.toNat ≤ 90 := UInt8.le_iff_toNat_le.1 hcase.2
    omega
  · exact h

/-- Letters beyond ASCII have no lower case here. -/
theorem toNat_lt_of_toLower {c : Char} (h : c.toLower.toNat < 128) : c.toNat < 128 := by
  unfold Char.toLower at h
  split at h
  · next hcase =>
    have hle : c.toNat ≤ 'Z'.toNat := UInt32.le_iff_toNat_le.1 hcase.2
    exact Nat.lt_of_le_of_lt hle (by decide)
  · exact h

/-- An ASCII character can be told by its byte. -/
theorem ofNat_toNat_toUInt8 {c : Char} (h : c.toNat < 128) : Char.ofNat c.toUInt8.toNat = c := by
  rw [toNat_toUInt8 h, Char.ofNat_toNat]

theorem toLower_toNat_lt {c : Char} (h : c.toNat < 128) : c.toLower.toNat < 128 := by
  have hall : ∀ n < 128, (Char.ofNat n).toLower.toNat < 128 := by
    decide
  simpa using hall c.toNat h

/-- The characters of `.feature`. -/
def featureEnding : List Char := ['.', 'f', 'e', 'a', 't', 'u', 'r', 'e']

theorem toNat_lt_of_mem_featureEnding : ∀ c ∈ featureEnding, c.toNat < 128 := by
  simp [featureEnding]

theorem utf8Bytes_featureEnding : utf8Bytes featureEnding = featureEnding.map Char.toUInt8 :=
  utf8Bytes_of_ascii toNat_lt_of_mem_featureEnding

theorem toNat_lt_of_mem_utf8Bytes_featureEnding : ∀ b ∈ utf8Bytes featureEnding, b.toNat < 128 := by
  rw [utf8Bytes_featureEnding]
  refine List.forall_mem_map.2 fun c hc => ?_
  rw [toNat_toUInt8 (toNat_lt_of_mem_featureEnding c hc)]
  exact toNat_lt_of_mem_featureEnding c hc

/-- A text of more than eight bytes, the last eight of which are `.feature` in any ASCII case. -/
def EndsAsFeature (name : String) : Prop :=
  8 < (textBytes name).length ∧
    ((textBytes name).rtake 8).map lowerByte = textBytes ".feature"

theorem map_lowerByte_eq_iff {es : List Char} (h : ∀ c ∈ es, c.toNat < 128) :
    (es.map Char.toUInt8).map lowerByte = utf8Bytes featureEnding ↔
      es.map Char.toLower = featureEnding := by
  have hbytes : (es.map Char.toUInt8).map lowerByte = (es.map Char.toLower).map Char.toUInt8 := by
    rw [List.map_map, List.map_map]
    exact List.map_congr_left fun c hc => lowerByte_toUInt8 (h c hc)
  have hback {cs : List Char} (hcs : ∀ c ∈ cs, c.toNat < 128) :
      (cs.map Char.toUInt8).map (fun b => Char.ofNat b.toNat) = cs := by
    rw [List.map_map]
    conv_rhs => rw [← List.map_id cs]
    exact List.map_congr_left fun c hc => ofNat_toNat_toUInt8 (hcs c hc)
  rw [hbytes, utf8Bytes_featureEnding]
  refine ⟨fun heq => ?_, fun heq => by rw [heq]⟩
  have heq' := congrArg (List.map fun b : UInt8 => Char.ofNat b.toNat) heq
  rwa [hback (List.forall_mem_map.2 fun c hc => toLower_toNat_lt (h c hc)),
    hback toNat_lt_of_mem_featureEnding] at heq'

theorem toNat_lt_of_map_toLower {es : List Char} (h : es.map Char.toLower = featureEnding) :
    ∀ c ∈ es, c.toNat < 128 := by
  intro c hc
  refine toNat_lt_of_toLower (toNat_lt_of_mem_featureEnding _ ?_)
  rw [← h]
  exact List.mem_map_of_mem hc

/-- The same said of characters. -/
theorem endsAsFeature_iff {name : String} : EndsAsFeature name ↔
    ∃ start ending, name.toList = start ++ ending ∧ start ≠ [] ∧
      ending.map Char.toLower = featureEnding := by
  have hfeature : textBytes ".feature" = utf8Bytes featureEnding := textBytes_eq ".feature"
  rw [EndsAsFeature, textBytes_eq, hfeature]
  constructor
  · rintro ⟨hlength, hending⟩
    have hcut : utf8Bytes name.toList =
        (utf8Bytes name.toList).rdrop 8 ++ (utf8Bytes name.toList).rtake 8 :=
      (List.take_append_drop _ _).symm
    have hascii : ∀ b ∈ (utf8Bytes name.toList).rtake 8, b.toNat < 128 := by
      intro b hb
      refine toNat_lt_of_lowerByte (toNat_lt_of_mem_utf8Bytes_featureEnding _ ?_)
      rw [← hending]
      exact List.mem_map_of_mem hb
    obtain ⟨start, ending, hname, hstart, hes, htake⟩ := exists_of_utf8Bytes_eq_append hcut hascii
    refine ⟨start, ending, hname, ?_, ?_⟩
    · rintro rfl
      have hzero := congrArg List.length hstart
      rw [utf8Bytes_nil, List.length_nil, List.rdrop, List.length_take] at hzero
      omega
    · rw [← map_lowerByte_eq_iff hes, ← htake]
      exact hending
  · rintro ⟨start, ending, hname, hne, hending⟩
    have hascii := toNat_lt_of_map_toLower hending
    have hbytes : utf8Bytes name.toList = utf8Bytes start ++ ending.map Char.toUInt8 := by
      rw [hname, utf8Bytes_append, utf8Bytes_of_ascii hascii]
    have hlength : (ending.map Char.toUInt8).length = 8 := by
      rw [List.length_map, ← List.length_map Char.toLower, hending]
      rfl
    have hstart := length_le_length_utf8Bytes start
    have hpos := List.length_pos_of_ne_nil hne
    constructor
    · rw [hbytes, List.length_append, hlength]
      omega
    · have htake : (utf8Bytes name.toList).rtake 8 = ending.map Char.toUInt8 := by
        rw [hbytes, List.rtake, List.length_append, hlength, Nat.add_sub_cancel, List.drop_left]
      rw [htake]
      exact (map_lowerByte_eq_iff hascii).2 hending

namespace Path

/-! ## The last dot of a name -/

/-- A name is cut at a dot behind which there is none, unless nothing stands in front of it. -/
theorem cutAtDot_append {ending : List Char} (h : '.' ∉ ending) (start : List Char) :
    (cutAtDot (start ++ '.' :: ending)).2 = if start = [] then none else some ending := by
  have hending : (start ++ '.' :: ending).reverse.takeWhile (· ≠ '.') = ending.reverse := by
    rw [List.reverse_append, List.reverse_cons, List.append_assoc, List.takeWhile_append_of_pos]
    · simp
    · intro c hc
      have hne : c ≠ '.' := fun heq => h (heq ▸ List.mem_reverse.1 hc)
      simpa using hne
  have hlength : (start ++ '.' :: ending).length - ending.length - 1 = start.length := by
    rw [List.length_append, List.length_cons]
    omega
  simp only [cutAtDot, hending, List.reverse_reverse, hlength, List.take_left]
  split <;> rfl

theorem cutAtDot_of_notMem {name : List Char} (h : '.' ∉ name) : (cutAtDot name).2 = none := by
  have hending : name.reverse.takeWhile (· ≠ '.') = name.reverse := by
    rw [List.takeWhile_eq_self_iff]
    intro c hc
    have hne : c ≠ '.' := fun heq => h (heq ▸ List.mem_reverse.1 hc)
    simpa using hne
  have hlength : name.length - name.length - 1 = 0 := by omega
  simp only [cutAtDot, hending, List.reverse_reverse, hlength, List.take_zero, if_pos]

theorem cutAtDot_eq_some_iff {name ending : List Char} : (cutAtDot name).2 = some ending ↔
    ∃ start, name = start ++ '.' :: ending ∧ '.' ∉ ending ∧ start ≠ [] := by
  constructor
  · intro hcut
    by_cases hdot : '.' ∈ name
    · -- The last dot is the first one from behind.
      obtain ⟨after, before, hname, hafter⟩ :=
        List.eq_append_cons_of_mem (List.mem_reverse.2 hdot)
      have hafter' : '.' ∉ after.reverse := by simpa using hafter
      have hname' : name = before.reverse ++ '.' :: after.reverse := by
        rw [← List.reverse_reverse name, hname]
        simp
      rw [hname', cutAtDot_append hafter'] at hcut
      split at hcut
      · cases hcut
      · next hne =>
        cases hcut
        exact ⟨_, hname', hafter', hne⟩
    · rw [cutAtDot_of_notMem hdot] at hcut
      cases hcut
  · rintro ⟨start, rfl, hending, hne⟩
    rw [cutAtDot_append hending, if_neg hne]

theorem eq_dot_of_toLower {c : Char} (h : c.toLower = '.') : c = '.' := by
  have hall : ∀ n < 128, (Char.ofNat n).toLower = '.' → Char.ofNat n = '.' := by decide
  have hc : c.toNat < 128 := toNat_lt_of_toLower (by rw [h]; decide)
  simpa [h] using hall c.toNat hc

/-- What follows the last dot of a name is `feature` just if the name goes on in front of `.feature`
and ends with it. -/
theorem exists_cutAtDot_iff {name : List Char} :
    (∃ ending, (cutAtDot name).2 = some ending ∧
        ending.map Char.toLower = ['f', 'e', 'a', 't', 'u', 'r', 'e']) ↔
      ∃ start ending, name = start ++ ending ∧ start ≠ [] ∧
        ending.map Char.toLower = featureEnding := by
  constructor
  · rintro ⟨ending, hcut, hlower⟩
    obtain ⟨start, hname, -, hne⟩ := cutAtDot_eq_some_iff.1 hcut
    refine ⟨start, '.' :: ending, hname, hne, ?_⟩
    rw [List.map_cons, hlower]
    rfl
  · rintro ⟨start, ending, hname, hne, hlower⟩
    obtain ⟨c, rest, rfl, hc, hrest⟩ := List.map_eq_cons_iff.1 hlower
    obtain rfl := eq_dot_of_toLower hc
    refine ⟨rest, cutAtDot_eq_some_iff.2 ⟨start, hname, fun hdot => ?_, hne⟩, hrest⟩
    have hmem : Char.toLower '.' ∈ rest.map Char.toLower := List.mem_map_of_mem hdot
    rw [hrest] at hmem
    exact absurd hmem (by decide)

/-! ## The last piece of a path -/

/-- Whether a piece between separators adds nothing to the path: it is empty or a dot. -/
def isIdle (piece : String) : Bool := piece = "" ∨ piece = "."

/-- The last piece of a path, once those at its end are dropped that add nothing. -/
def lastPiece? (p : Path) : Option String :=
  ((pathPieces p.text).rdropWhile isIdle).getLast?

theorem lastPiece?_eq (p : Path) :
    p.lastPiece? = (pathPieces p.text).reverse.find? fun piece => !isIdle piece := by
  rw [lastPiece?, List.rdropWhile, List.getLast?_reverse, List.find?_eq_head?_dropWhile_not]
  simp only [Bool.not_not]

/-- Behind a separator the last piece is looked for first. -/
theorem lastPiece?_append (before after : String) :
    (⟨before ++ "/" ++ after⟩ : Path).lastPiece? =
      (⟨after⟩ : Path).lastPiece?.or (⟨before⟩ : Path).lastPiece? := by
  simp only [lastPiece?_eq, FileSystem.pathPieces_append, List.reverse_append, List.find?_append]

@[simp] theorem lastPiece?_empty : (⟨""⟩ : Path).lastPiece? = none := by decide

/-- A separator at the end adds nothing. -/
theorem lastPiece?_append_separator (text : String) :
    (⟨text ++ "/"⟩ : Path).lastPiece? = (⟨text⟩ : Path).lastPiece? := by
  have htrailing := lastPiece?_append text ""
  rwa [String.append_empty, lastPiece?_empty, Option.none_or] at htrailing

/-- Neither does a second one behind the first. -/
theorem lastPiece?_append_doubled (before after : String) :
    (⟨before ++ "//" ++ after⟩ : Path).lastPiece? =
      (⟨before ++ "/" ++ after⟩ : Path).lastPiece? := by
  have hdoubled : before ++ "//" ++ after = before ++ "/" ++ "/" ++ after := by
    simp [← String.toList_inj]
  rw [hdoubled, lastPiece?_append, lastPiece?_append_separator, lastPiece?_append]

/-- Only pieces that add something are read as components. -/
theorem findSome?_ofText? (pieces : List String) :
    pieces.findSome? Component.ofText? =
      (pieces.find? fun piece => !isIdle piece).bind Component.ofText? := by
  induction pieces with
  | nil => rfl
  | cons piece pieces ih =>
    rw [List.findSome?_cons, List.find?_cons]
    rcases Component.ofText?_cases piece with ⟨hidle, hnone⟩ | ⟨rfl, hup⟩ | ⟨hname, hsome⟩
    · simp [isIdle, hidle, hnone, ih]
    · rfl
    · simp [isIdle, hname, hsome]

/-- The name of a file is the last piece, unless that leads up. -/
theorem fileName?_eq (p : Path) : p.fileName? = p.lastPiece?.filter (· ≠ "..") := by
  obtain ⟨piece, rest, hpieces⟩ :=
    List.exists_cons_of_ne_nil (FileSystem.pathPieces_ne_nil p.text)
  have hlast : p.components.getLast? =
      (p.lastPiece?.bind Component.ofText?).or (leadOf piece rest) := by
    rw [components_of_pieces hpieces, List.getLast?_append, List.getLast?_filterMap,
      findSome?_ofText?, ← hpieces, ← lastPiece?_eq]
    cases leadOf piece rest <;> rfl
  rw [fileName?, hlast]
  cases hcase : p.lastPiece? with
  | none =>
    have hlead : leadOf piece rest = none ∨ leadOf piece rest = some .root ∨
        leadOf piece rest = some .here := by
      unfold leadOf
      split_ifs
      · exact .inr (.inl rfl)
      · exact .inr (.inr rfl)
      · exact .inl rfl
    rcases hlead with h | h | h <;> rw [h] <;> rfl
  | some name =>
    have hname : isIdle name = false := by
      rw [lastPiece?_eq] at hcase
      simpa using List.find?_some hcase
    rcases Component.ofText?_cases name with ⟨hidle, -⟩ | ⟨rfl, hup⟩ | ⟨hne, hsome⟩
    · simp [isIdle, hidle] at hname
    · rfl
    · simp [hsome, Option.filter, hne.2.2]

/-! ## The extension -/

theorem hasFeatureExtension_iff_exists {p : Path} : p.hasFeatureExtension = true ↔
    ∃ name, p.fileName? = some name ∧ ∃ ending, (cutAtDot name.toList).2 = some ending ∧
      ending.map Char.toLower = ['f', 'e', 'a', 't', 'u', 'r', 'e'] := by
  unfold hasFeatureExtension extension?
  cases p.fileName? with
  | none => simp
  | some name =>
    rw [Option.bind_some]
    cases hcut : (cutAtDot name.toList).2 with
    | none => simp [hcut]
    | some ending => simp [hcut]

/-- The extension is read off the last piece. -/
theorem hasFeatureExtension_iff {p : Path} : p.hasFeatureExtension = true ↔
    ∃ name, p.lastPiece? = some name ∧ name ≠ ".." ∧ EndsAsFeature name := by
  rw [hasFeatureExtension_iff_exists, fileName?_eq]
  constructor
  · rintro ⟨name, hname, hending⟩
    obtain ⟨hlast, hup⟩ := Option.filter_eq_some_iff.1 hname
    exact ⟨name, hlast, by simpa using hup, endsAsFeature_iff.2 (exists_cutAtDot_iff.1 hending)⟩
  · rintro ⟨name, hlast, hup, hends⟩
    refine ⟨name, Option.filter_eq_some_iff.2 ⟨hlast, by simpa using hup⟩, ?_⟩
    exact exists_cutAtDot_iff.2 (endsAsFeature_iff.1 hends)

/-- Paths with the same last piece are told alike. -/
theorem hasFeatureExtension_congr {p q : Path} (h : p.lastPiece? = q.lastPiece?) :
    p.hasFeatureExtension = q.hasFeatureExtension := by
  rw [Bool.eq_iff_iff, hasFeatureExtension_iff, hasFeatureExtension_iff, h]

/-- Of several dots only the last one counts. -/
theorem hasFeatureExtension_iff_of_dot {p : Path} {start ending : String}
    (hending : '.' ∉ ending.toList) (h : p.lastPiece? = some (start ++ "." ++ ending)) :
    p.hasFeatureExtension = true ↔
      start ≠ "" ∧ ending.toList.map Char.toLower = "feature".toList := by
  have hcut : (cutAtDot (start ++ "." ++ ending).toList).2 =
      if start.toList = [] then none else some ending.toList := by
    rw [← cutAtDot_append hending]
    simp
  have hempty : start.toList = [] ↔ start = "" := String.toList_eq_nil_iff
  rw [hasFeatureExtension_iff_exists, fileName?_eq, h]
  constructor
  · rintro ⟨name, hname, ending', hcut', hlower⟩
    obtain ⟨hlast, -⟩ := Option.filter_eq_some_iff.1 hname
    cases hlast
    rw [hcut] at hcut'
    split at hcut'
    · cases hcut'
    · next hne =>
      cases hcut'
      exact ⟨fun heq => hne (hempty.2 heq), hlower⟩
  · rintro ⟨hne, hlower⟩
    refine ⟨_, Option.filter_eq_some_iff.2 ⟨rfl, ?_⟩, ending.toList, ?_, hlower⟩
    · -- Behind the last dot of `..` there is nothing.
      have hup : start ++ "." ++ ending ≠ ".." := fun heq => by
        have hnone : (cutAtDot "..".toList).2 = some [] := rfl
        rw [← heq, hcut, if_neg (fun h => hne (hempty.1 h))] at hnone
        rw [Option.some.inj hnone] at hlower
        exact absurd hlower (by decide)
      simpa using hup
    · rw [hcut, if_neg (fun h => hne (hempty.1 h))]

/-- A path is taken for a feature file just if its last piece, separators and dots at the end
dropped, is not `..`, is longer than eight bytes and ends with the eight bytes of `.feature` in any
ASCII case. So `.feature` is none, of several dots in a name only the last one counts, and a
separator that is doubled, stands at the end or stands in front of a last piece changes nothing. -/
theorem hasFeatureExtension_exact (p : Path) :
    (p.hasFeatureExtension = true ↔
      ∃ name, p.lastPiece? = some name ∧ name ≠ ".." ∧ EndsAsFeature name) ∧
    (p.lastPiece? = some ".feature" → p.hasFeatureExtension = false) ∧
    (∀ start ending, '.' ∉ ending.toList → p.lastPiece? = some (start ++ "." ++ ending) →
      (p.hasFeatureExtension = true ↔
        start ≠ "" ∧ ending.toList.map Char.toLower = "feature".toList)) ∧
    (∀ before after, p.text = before ++ "/" ++ after →
      (⟨before ++ "//" ++ after⟩ : Path).hasFeatureExtension = p.hasFeatureExtension ∧
        ((⟨after⟩ : Path).lastPiece? ≠ none →
          (⟨after⟩ : Path).hasFeatureExtension = p.hasFeatureExtension)) ∧
    (⟨p.text ++ "/"⟩ : Path).hasFeatureExtension = p.hasFeatureExtension := by
  refine ⟨hasFeatureExtension_iff, ?_, ?_, ?_, ?_⟩
  · intro h
    have hlast : p.lastPiece? = some ("" ++ "." ++ "feature") := h
    have hiff := hasFeatureExtension_iff_of_dot (by decide) hlast
    simpa using hiff
  · exact fun start ending hending h => hasFeatureExtension_iff_of_dot hending h
  · rintro before after htext
    obtain rfl : p = ⟨before ++ "/" ++ after⟩ := by rw [← htext]
    refine ⟨hasFeatureExtension_congr (lastPiece?_append_doubled before after), fun hsome => ?_⟩
    obtain ⟨name, hname⟩ := Option.ne_none_iff_exists'.1 hsome
    apply hasFeatureExtension_congr
    rw [lastPiece?_append, hname, Option.some_or]
  · exact hasFeatureExtension_congr (lastPiece?_append_separator p.text)

theorem hasFeatureExtension_exact_onion :
    (⟨"soups/..onion.v2.FeaTURE/./"⟩ : Path).hasFeatureExtension = true ∧
      (⟨"soups//..onion.v2.FeaTURE/./"⟩ : Path).hasFeatureExtension = true ∧
      (⟨"..onion.v2.FeaTURE/./"⟩ : Path).hasFeatureExtension = true ∧
      (⟨"soups/onion/.feature"⟩ : Path).hasFeatureExtension = false := by
  obtain ⟨-, -, hdot, hseparator, -⟩ := hasFeatureExtension_exact ⟨"soups/..onion.v2.FeaTURE/./"⟩
  obtain ⟨-, hshort, -⟩ := hasFeatureExtension_exact ⟨"soups/onion/.feature"⟩
  have honion : (⟨"soups/..onion.v2.FeaTURE/./"⟩ : Path).hasFeatureExtension = true :=
    (hdot "..onion.v2" "FeaTURE" (by decide) (by decide)).2 (by decide)
  obtain ⟨hdouble, hinner⟩ := hseparator "soups" "..onion.v2.FeaTURE/./" (by decide)
  exact ⟨honion, hdouble.trans honion, (hinner (by decide)).trans honion, hshort (by decide)⟩

end Path

end FeatureAtlas
