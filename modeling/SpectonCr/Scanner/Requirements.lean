import SpectonCr.Scanner.Pypi
import SpectonCr.Storage.Store

namespace SpectonCr.Scanner.Requirements

open Storage

/-- `split_once("==")`. -/
def splitEquals : List Char → Option (List Char × List Char)
  | '=' :: '=' :: rest => some ([], rest)
  | c :: rest => (splitEquals rest).map fun parts => (c :: parts.1, parts.2)
  | [] => none

/-- What stands before the first separator. -/
def before (sep : Char) (text : String) : String := (Text.split text sep).headD ""

def parseLine (raw : String) : Option Component :=
  let line := Text.trim (before '#' raw)
  if line = "" || Text.startsWith line "-" then none
  else match splitEquals line.toList with
    | none => none
    | some (name, version) =>
      let version := Text.trim (before '[' (Text.trim (before ';' (String.ofList version))))
      if name = [] || version = "" then none
      else
        let norm := normalizePypi (Text.trim (String.ofList name))
        some ⟨norm, version, "pypi", "pkg:pypi/" ++ norm ++ "@" ++ version⟩

def parseRequirements (contents : Bytes) : List Component :=
  match String.fromUTF8? contents with
  | none => []
  | some text => (lines text).filterMap parseLine

/-- What follows the version: a marker with anything after it, or options and a comment. -/
inductive Tail where
  | marked (rest : List Char)
  | bare (hashes : List (List Char × List Char)) (comment : Option (List Char))

/-- A pin as pip writes it, with the blanks between its parts. -/
structure Pin where
  (lead name afterName : List Char)
  extras : Option (List Char)
  (afterExtras afterEquals version afterVersion : List Char)
  tail : Tail

def Blank (chars : List Char) : Prop := ∀ c ∈ chars, Text.isWhitespace c = true

/-- A text without blanks and without the given characters. -/
def Word (without : List Char) (chars : List Char) : Prop :=
  chars ≠ [] ∧ ∀ c ∈ chars, Text.isWhitespace c = false ∧ c ∉ without

open Text

theorem word_of_all (all : chars ≠ [] ∧ (chars.all fun c =>
      !isWhitespace c && !without.contains c) = true) : Word without chars := by
  simpa [Word] using all

def Pin.front (pin : Pin) : List Char :=
  pin.name ++ pin.afterName ++ (pin.extras.elim [] fun extras => '[' :: extras ++ [']']) ++ pin.afterExtras

def hashText (hashes : List (List Char × List Char)) : List Char :=
  hashes.flatMap fun hash => hash.1 ++ "--hash=".toList ++ hash.2

def Tail.text : Tail → List Char
  | .marked rest => ';' :: rest
  | .bare hashes comment => hashText hashes ++ comment.elim [] ('#' :: ·)

def Pin.text (pin : Pin) : List Char :=
  pin.lead ++ (pin.front ++ '=' :: '=' :: (pin.afterEquals ++ pin.version ++ pin.afterVersion ++
    pin.tail.text))

/-- The parts are as pip reads them. -/
structure Pin.Valid (pin : Pin) : Prop where
  name : Word ['#', '=', '['] pin.name
  begins : pin.name.head? ≠ some '-'
  extras : ∀ extras, pin.extras = some extras → '#' ∉ extras ∧ '=' ∉ extras
  version : Word ['#', ';', '['] pin.version
  blanks : Blank pin.lead ∧ Blank pin.afterName ∧ Blank pin.afterExtras ∧ Blank pin.afterEquals ∧
    Blank pin.afterVersion
  hashes : ∀ hashes comment, pin.tail = .bare hashes comment → ∀ hash ∈ hashes,
    Blank hash.1 ∧ hash.1 ≠ [] ∧ Word ['#', ';', '['] hash.2

/-- The part of the text that the parser sees: up to the comment. -/
def Tail.seen : Tail → List Char
  | .marked rest => ';' :: rest.takeWhile (· != '#')
  | .bare hashes _ => hashText hashes

theorem takeWhile_clean (absent : sep ∉ front) (rest : List Char) :
    (front ++ rest).takeWhile (· != sep) = front ++ rest.takeWhile (· != sep) :=
  List.takeWhile_append_of_pos fun _ member => bne_iff_ne.mpr (ne_of_mem_of_not_mem member absent)

theorem takeWhile_whole {chars : List Char} (absent : sep ∉ chars) : chars.takeWhile (· != sep) = chars := by
  simpa using takeWhile_clean absent []

theorem before_eq (sep : Char) (chars : List Char) :
    before sep (String.ofList chars) = String.ofList (chars.takeWhile (· != sep)) := by
  by_cases present : sep ∈ chars
  · obtain ⟨front, back, rfl, absent⟩ := List.eq_append_cons_of_mem present
    have joined : split (String.ofList (front ++ sep :: back)) sep =
        split (String.ofList front) sep ++ split (String.ofList back) sep :=
      split_join (by simp)
    rw [before, joined, split_of_not_mem (by simpa using absent), takeWhile_clean absent]
    simp
  · rw [before, split_of_not_mem (by simpa using present), takeWhile_whole present]
    rfl

/-- A text without the blanks at its end. -/
def rtrim (chars : List Char) : List Char := (chars.reverse.dropWhile Text.isWhitespace).reverse

theorem rtrim_at (solid : isWhitespace c = false) (front rest : List Char) :
    rtrim (front ++ c :: rest) = front ++ c :: rtrim rest := by
  unfold rtrim
  rw [List.reverse_append, List.reverse_cons, List.append_assoc, List.dropWhile_append]
  cases left : rest.reverse.dropWhile isWhitespace with
  | nil => simp [solid]
  | cons d more => simp

theorem rtrim_blank (blank : Blank chars) : rtrim chars = [] := by
  rw [rtrim, List.dropWhile_eq_nil_iff.mpr (by simpa [Blank] using blank), List.reverse_nil]

theorem rtrim_rtrim (chars : List Char) : rtrim (rtrim chars) = rtrim chars := by
  simp only [rtrim, List.reverse_reverse, List.dropWhile_idempotent]

theorem mem_of_mem_rtrim (member : c ∈ rtrim chars) : c ∈ chars := by
  have kept := (List.dropWhile_sublist _).subset (List.mem_reverse.mp member)
  exact List.mem_reverse.mp kept

theorem rtrim_word (word : Word without chars) (front rest : List Char) :
    rtrim (front ++ (chars ++ rest)) = front ++ (chars ++ rtrim rest) := by
  obtain ⟨last, init⟩ := List.eq_nil_or_concat chars |>.resolve_left word.1
  obtain ⟨c, rfl⟩ := init
  have solid := (word.2 c (by simp)).1
  simpa using rtrim_at solid (front ++ last) rest

theorem trim_eq (blank : Blank lead) (word : Word without chars) (rest : List Char) :
    trim (String.ofList (lead ++ (chars ++ rest))) = String.ofList (chars ++ rtrim rest) := by
  have kept : (chars ++ rest).dropWhile isWhitespace = chars ++ rest := by
    cases chars with
    | nil => exact absurd rfl word.1
    | cons c more => simp [(word.2 c (by simp)).1]
  have cut : (lead ++ (chars ++ rest)).dropWhile isWhitespace = chars ++ rest := by
    rw [List.dropWhile_append_of_pos blank, kept]
  rw [trim, String.toList_ofList, cut]
  exact congrArg String.ofList (rtrim_word word [] rest)

theorem splitEquals_at (absent : '=' ∉ front) (rest : List Char) :
    splitEquals (front ++ '=' :: '=' :: rest) = some (front, rest) := by
  induction front with
  | nil => simp [splitEquals]
  | cons c more ih =>
    obtain ⟨other, absent⟩ := not_or.mp (mt List.mem_cons.mpr absent)
    rw [List.cons_append, splitEquals, ih absent]
    · rfl
    · rintro rest rfl
      exact fun _ => other rfl

/-- The options that stand directly behind the version. -/
def Tail.options : Tail → List Char
  | .marked _ => []
  | .bare hashes _ => hashText hashes

/-- What the parser takes for the version. -/
def Pin.seenVersion (pin : Pin) : List Char := pin.version ++ rtrim (pin.afterVersion ++ pin.tail.options)

theorem Blank.not_mem (blank : Blank chars) (solid : isWhitespace c = false) : c ∉ chars := by
  intro member
  rw [blank c member] at solid
  cases solid

theorem solid_of_mem (listed : c ∈ ['#', '=', ';', '[']) : isWhitespace c = false := by
  simp only [List.mem_cons, List.not_mem_nil, or_false] at listed
  rcases listed with rfl | rfl | rfl | rfl <;> decide

variable {pin : Pin}

theorem Pin.Valid.front_clean (valid : pin.Valid) : ∀ c ∈ ['#', '='], c ∉ pin.front := by
  intro c listed member
  have solid : isWhitespace c = false ∧ c ≠ '[' ∧ c ≠ ']' ∧ c ∈ ['#', '=', '['] := by
    simp only [List.mem_cons, List.not_mem_nil, or_false] at listed
    rcases listed with rfl | rfl <;> decide
  obtain ⟨_, one, two, _⟩ := valid.blanks
  simp only [Pin.front, List.mem_append] at member
  rcases member with ((named | blank) | inExtras) | blank
  · exact (valid.name.2 c named).2 solid.2.2.2
  · exact one.not_mem solid.1 blank
  · cases given : pin.extras with
    | none => simp [given] at inExtras
    | some extras =>
      have clean := valid.extras extras given
      simp only [given, Option.elim_some, List.mem_append, List.mem_cons, List.not_mem_nil,
        or_false] at inExtras
      rcases inExtras with (opening | inside) | closing
      · exact solid.2.1 opening
      · simp only [List.mem_cons, List.not_mem_nil, or_false] at listed
        rcases listed with rfl | rfl
        · exact clean.1 inside
        · exact clean.2 inside
      · exact solid.2.2.1 closing
  · exact two.not_mem solid.1 blank

theorem hashText_clean (valid : ∀ hash ∈ hashes, Blank hash.1 ∧ hash.1 ≠ [] ∧
      Word ['#', ';', '['] hash.2) : ∀ c ∈ ['#', ';', '['], c ∉ hashText hashes := by
  intro c listed member
  obtain ⟨hash, given, inside⟩ := List.mem_flatMap.mp member
  obtain ⟨blank, _, word⟩ := valid hash given
  have solid : isWhitespace c = false ∧ c ∉ "--hash=".toList := by
    simp only [List.mem_cons, List.not_mem_nil, or_false] at listed
    rcases listed with rfl | rfl | rfl <;> decide
  simp only [List.mem_append] at inside
  rcases inside with (gap | option) | value
  · exact blank.not_mem solid.1 gap
  · exact solid.2 option
  · exact (word.2 c value).2 listed

theorem Pin.Valid.seen (valid : pin.Valid) :
    before '#' (String.ofList pin.text) = String.ofList (pin.lead ++ (pin.front ++ '=' :: '=' ::
      (pin.afterEquals ++ (pin.version ++ (pin.afterVersion ++ pin.tail.seen))))) := by
  obtain ⟨lead, _, _, afterEquals, afterVersion⟩ := valid.blanks
  have tail : pin.tail.text.takeWhile (· != '#') = pin.tail.seen := by
    cases shape : pin.tail with
    | marked rest => rfl
    | bare hashes comment =>
      have clean := hashText_clean (valid.hashes hashes comment shape) '#' (by simp)
      rw [Tail.text, takeWhile_clean clean]
      cases comment <;> simp [Tail.seen]
  have kept : '#' ∉ pin.lead ++ (pin.front ++ '=' :: '=' ::
      (pin.afterEquals ++ (pin.version ++ pin.afterVersion))) := by
    intro member
    simp only [List.mem_append, List.mem_cons] at member
    rcases member with blank | front | equals | equals | blank | version | blank
    · exact lead.not_mem (by decide) blank
    · exact valid.front_clean '#' (by simp) front
    · exact absurd equals (by decide)
    · exact absurd equals (by decide)
    · exact afterEquals.not_mem (by decide) blank
    · exact (valid.version.2 _ version).2 (by simp)
    · exact afterVersion.not_mem (by decide) blank
  rw [before_eq, ← tail]
  exact congrArg String.ofList (by simpa [Pin.text] using takeWhile_clean kept pin.tail.text)

theorem Pin.Valid.options_clean (valid : pin.Valid) :
    ∀ c ∈ ['#', ';', '['], c ∉ rtrim (pin.afterVersion ++ pin.tail.options) := by
  intro c listed member
  obtain ⟨_, _, _, _, afterVersion⟩ := valid.blanks
  have solid : isWhitespace c = false := solid_of_mem (by aesop)
  rcases List.mem_append.mp (mem_of_mem_rtrim member) with blank | option
  · exact afterVersion.not_mem solid blank
  cases shape : pin.tail with
  | marked rest => simp [shape, Tail.options] at option
  | bare hashes comment =>
    rw [shape] at option
    exact hashText_clean (valid.hashes hashes comment shape) c listed option

theorem Pin.Valid.version_seen (valid : pin.Valid) : trim (before '[' (trim (before ';' (String.ofList
      (pin.afterEquals ++ (pin.version ++ rtrim (pin.afterVersion ++ pin.tail.seen))))))) =
      String.ofList pin.seenVersion := by
  obtain ⟨_, _, _, afterEquals, afterVersion⟩ := valid.blanks
  have clean : ';' ∉ pin.afterEquals ++ pin.version := by
    intro member
    rcases List.mem_append.mp member with blank | version
    · exact afterEquals.not_mem (by decide) blank
    · exact (valid.version.2 _ version).2 (by simp)
  have unbracketed : '[' ∉ pin.seenVersion := by
    intro member
    rcases List.mem_append.mp member with version | more
    · exact (valid.version.2 _ version).2 (by simp)
    · exact valid.options_clean '[' (by simp) more
  have cut : rtrim ((rtrim (pin.afterVersion ++ pin.tail.seen)).takeWhile (· != ';')) =
      rtrim (pin.afterVersion ++ pin.tail.options) := by
    have options := valid.options_clean ';' (by simp)
    cases shape : pin.tail with
    | marked rest =>
      rw [Tail.seen, rtrim_at (by decide), takeWhile_clean (afterVersion.not_mem (by decide))]
      simp [Tail.options]
    | bare hashes comment =>
      rw [shape] at options
      exact (congrArg rtrim (takeWhile_whole options)).trans (rtrim_rtrim _)
  have again := trim_eq (nofun : Blank []) valid.version (rtrim (pin.afterVersion ++ pin.tail.options))
  rw [List.nil_append, rtrim_rtrim] at again
  rw [before_eq, ← List.append_assoc, takeWhile_clean clean, List.append_assoc,
    trim_eq afterEquals valid.version, cut, ← Pin.seenVersion, before_eq,
    takeWhile_whole unbracketed]
  exact again

theorem parseLine_pin (valid : pin.Valid) : parseLine (String.ofList pin.text) = some
      ⟨normalizePypi (trim (String.ofList pin.front)), String.ofList pin.seenVersion, "pypi",
        "pkg:pypi/" ++ normalizePypi (trim (String.ofList pin.front)) ++ "@" ++
          String.ofList pin.seenVersion⟩ := by
  obtain ⟨lead, _⟩ := valid.blanks
  obtain ⟨c, more, named⟩ := List.exists_cons_of_ne_nil valid.name.1
  obtain ⟨v, others, numbered⟩ := List.exists_cons_of_ne_nil valid.version.1
  obtain ⟨rest, front⟩ : ∃ rest, pin.front = pin.name ++ rest := by
    simp only [Pin.front, List.append_assoc, List.append_cancel_left_eq, exists_eq']
  have line : trim (before '#' (String.ofList pin.text)) = String.ofList (pin.front ++
      '=' :: '=' :: (pin.afterEquals ++ (pin.version ++ rtrim (pin.afterVersion ++ pin.tail.seen)))) := by
    have ends := rtrim_word valid.version (rest ++ '=' :: '=' :: pin.afterEquals)
      (pin.afterVersion ++ pin.tail.seen)
    rw [valid.seen, front, List.append_assoc, trim_eq lead valid.name]
    simp only [List.append_assoc, List.cons_append] at ends ⊢
    rw [ends]
  have begins : startsWith (String.ofList (pin.front ++ '=' :: '=' :: (pin.afterEquals ++
      (pin.version ++ rtrim (pin.afterVersion ++ pin.tail.seen))))) "-" = false := by
    have other : c ≠ '-' := fun same => valid.begins (by rw [named, same]; rfl)
    simp [startsWith, front, named, List.isPrefixOf, Ne.symm other]
  have filled : pin.front ≠ [] := by simp [front, named]
  have found : String.ofList pin.seenVersion ≠ "" := by
    intro empty
    have none := congrArg String.toList empty
    simp [Pin.seenVersion, numbered] at none
  simp only [parseLine, line, begins, String.toList_ofList,
    splitEquals_at (valid.front_clean '=' (by simp)), valid.version_seen]
  simp [filled, found]

theorem bracket_mem_dropWhile (chars : List Char) : '[' ∈ chars.dropWhile (· = '-') ↔ '[' ∈ chars := by
  induction chars with
  | nil => rfl
  | cons c rest ih =>
    by_cases dash : c = '-'
    · subst dash
      simpa using ih
    · simp [dash]

theorem bracket_mem_normalizePypi (chars : List Char) :
    '[' ∈ (normalizePypi (String.ofList chars)).toList ↔ '[' ∈ chars := by
  have squeezed : ∀ inRun, '[' ∈ squeeze inRun chars ↔ '[' ∈ chars := by
    induction chars with
    | nil => intro inRun; rfl
    | cons c rest ih =>
      intro inRun
      rw [squeeze]
      cases separator : isSeparator c with
      | true =>
        have other : '[' ≠ c := by
          rintro rfl
          exact absurd separator (by decide)
        cases inRun <;> simp [ih, other]
      | false => simp [ih]
  have lowered : ∀ c : Char, c.toLower = '[' ↔ c = '[' := by
    intro c
    rcases toLower_cases c with same | ⟨upper, low, _⟩
    · rw [same]
    refine iff_of_false ?_ ?_
    · intro same
      rw [same] at low
      exact absurd low (by decide)
    · rintro rfl
      exact absurd upper (by decide)
  rw [normalizePypi, String.toList_ofList, String.toList_ofList, trimDashes, List.mem_reverse,
    bracket_mem_dropWhile, List.mem_reverse, bracket_mem_dropWhile, normalizeLoop_eq,
    List.mem_map]
  simp only [lowered, exists_eq_right, squeezed]

theorem parseLine_pin_iff (valid : pin.Valid) :
    (parseLine (String.ofList pin.text)).map (fun found => (found.name, found.version)) =
        some (normalizePypi (String.ofList pin.name), String.ofList pin.version) ↔
      pin.extras = none ∧ ∀ hashes comment, pin.tail = .bare hashes comment → hashes = [] := by
  obtain ⟨_, afterName, afterExtras, _, afterVersion⟩ := valid.blanks
  have front : trim (String.ofList pin.front) = String.ofList (pin.name ++
      rtrim (pin.afterName ++ ((pin.extras.elim [] fun extras => '[' :: extras ++ [']']) ++
        pin.afterExtras))) := by
    have trimmed := trim_eq (nofun : Blank []) valid.name
      (pin.afterName ++ ((pin.extras.elim [] fun extras => '[' :: extras ++ [']']) ++ pin.afterExtras))
    simpa [Pin.front] using trimmed
  have name : normalizePypi (trim (String.ofList pin.front)) =
      normalizePypi (String.ofList pin.name) ↔ pin.extras = none := by
    rw [front]
    cases given : pin.extras with
    | none =>
      have blank : Blank (pin.afterName ++ pin.afterExtras) := by
        intro c member
        exact (List.mem_append.mp member).elim (afterName c) (afterExtras c)
      simp [rtrim_blank blank]
    | some extras =>
      refine iff_of_false (fun same => ?_) nofun
      have there := (bracket_mem_normalizePypi pin.name).mp (same ▸ (bracket_mem_normalizePypi _).mpr (by
          rw [Option.elim_some, List.cons_append, List.cons_append, rtrim_at (by decide)]
          simp))
      exact (valid.name.2 _ there).2 (by simp)
  have version : pin.seenVersion = pin.version ↔
      ∀ hashes comment, pin.tail = .bare hashes comment → hashes = [] := by
    rw [Pin.seenVersion, List.append_right_eq_self]
    cases shape : pin.tail with
    | marked rest => simp [Tail.options, rtrim_blank afterVersion]
    | bare hashes comment =>
      simp only [Tail.bare.injEq, Tail.options]
      cases hashes with
      | nil => simp [hashText, rtrim_blank afterVersion]
      | cons hash others =>
        have solid : isWhitespace '-' = false := by decide
        have kept := rtrim_at solid (pin.afterVersion ++ hash.1)
          ("-hash=".toList ++ (hash.2 ++ hashText others))
        have spelled : pin.afterVersion ++ hashText (hash :: others) = pin.afterVersion ++ hash.1 ++
            '-' :: ("-hash=".toList ++ (hash.2 ++ hashText others)) := by
          simp [hashText]
        rw [spelled, kept]
        simp
  rw [parseLine_pin valid, Option.map_some, Option.some.injEq, Prod.mk.injEq, name,
    String.ofList_inj, version]

/-- In every file, the line of a pin gives one package with its name and version exactly when it has
no extras, and no option stands directly behind the version. -/
theorem pin_extracted_iff (text : String) (pin : Pin) (valid : pin.Valid) (front back : List String)
    (line : lines text = front ++ String.ofList pin.text :: back) :
    (∃ found, parseRequirements text.toByteArray =
        front.filterMap parseLine ++ found :: back.filterMap parseLine ∧
        found.name = normalizePypi (String.ofList pin.name) ∧
        found.version = String.ofList pin.version) ↔
      pin.extras = none ∧ ∀ hashes comment, pin.tail = .bare hashes comment → hashes = [] := by
  have emitted : parseRequirements text.toByteArray = front.filterMap parseLine ++
      ((parseLine (String.ofList pin.text)).toList ++ back.filterMap parseLine) := by
    rw [parseRequirements, fromUTF8?_toByteArray]
    simp only [line, List.filterMap_append, List.filterMap_cons]
    cases parseLine (String.ofList pin.text) <;> rfl
  rw [← parseLine_pin_iff valid, emitted, parseLine_pin valid]
  simp

/-- A pin with extras and one with a hash. -/
theorem extras_kept_in_name :
    (parseRequirements "requests[security]==2.31.0\nrequests==2.31.0 --hash=sha256:ab".toByteArray).map
        (fun found => (found.name, found.version)) =
      [("requests[security]", "2.31.0"), ("requests", "2.31.0 --hash=sha256:ab")] := by
  rw [parseRequirements, fromUTF8?_toByteArray]
  decide +kernel

/-- A marker hides what follows it. -/
theorem marked_pin_extracted : ∃ found,
    parseRequirements "Django == 4.2 ; python_version > \"3\" --hash=sha256:ab # web".toByteArray =
      [found] ∧ found.name = normalizePypi "Django" ∧ found.version = "4.2" :=
  (pin_extracted_iff _ ⟨[], "Django".toList, " ".toList, none, [], " ".toList, "4.2".toList,
    " ".toList, .marked " python_version > \"3\" --hash=sha256:ab # web".toList⟩
    { name := word_of_all (by decide +kernel)
      begins := by decide
      extras := nofun
      version := word_of_all (by decide +kernel)
      blanks := by simp [Blank, Text.isWhitespace]
      hashes := nofun } [] [] (by decide +kernel)).mpr ⟨rfl, nofun⟩

end SpectonCr.Scanner.Requirements
