import TemplateBinding.Json.Printer
import TemplateBinding.Json.Reader

/-!
# Reading what was printed

A printed string scans as one token for its text, and a printed value without numbers takes the
machine from where a value must follow to where that value is finished.  So the laid-out form of such
a value is read as the value again.
-/
namespace TemplateBinding.Json
set_option autoImplicit false

/-! ## Strings -/

theorem hexUnit?_digitChar :
    ∀ n < 0x20, hexUnit? '0' '0' (Nat.digitChar (n / 16)) (Nat.digitChar (n % 16)) = some n := by
  decide

theorem joinUnits_code {n : Nat} (h : n < 0xD800) (units : List Unit16) :
    joinUnits (.code n :: units) = (joinUnits units).map (Char.ofNat n :: ·) := by
  have hHigh : isHighSurrogate n = false := by simp [isHighSurrogate]; omega
  have hLow : isLowSurrogate n = false := by simp [isLowSurrogate]; omega
  cases units with
  | nil => simp [joinUnits, hHigh, hLow]
  | cons unit units => cases unit <;> simp [joinUnits, hHigh, hLow]

/-- The unit stands for the character: it is read from the escaped character in front of anything, and
joined to it. -/
structure Encodes (unit : Unit16) (escaped : List Char) (c : Char) : Prop where
  scan : ∀ rest, scanString (escaped ++ rest) =
    (scanString rest).map fun read => (unit :: read.1, read.2)
  join : ∀ units, joinUnits (unit :: units) = (joinUnits units).map (c :: ·)

theorem encodes_char {c : Char} (hQuote : c ≠ '"') (hBackslash : c ≠ '\\')
    (hControl : ¬c.toNat < 0x20) : Encodes (.char c) [c] c where
  scan rest := by
    rw [List.singleton_append, scanString, if_neg (not_or.mpr ⟨hControl, hBackslash⟩)]
    · cases scanString rest <;> rfl
    · exact hQuote
    · exact fun _ _ _ _ _ hSame => absurd hSame hBackslash
    · exact fun _ _ hSame => absurd hSame hBackslash
  join _ := by rw [joinUnits]

theorem encodes_shortEscape {letter c : Char} (h : shortEscape? letter = some c) :
    Encodes (.char c) ['\\', letter] c where
  scan rest := by
    have hLetter : letter ≠ 'u' := by
      rintro rfl
      cases h
    rw [List.cons_append, List.singleton_append, scanString]
    · rw [h]
      cases scanString rest <;> rfl
    · exact fun _ _ _ _ _ hSame => absurd hSame hLetter
  join _ := by rw [joinUnits]

theorem encodes_hexEscape {c : Char} (h : c.toNat < 0x20) :
    Encodes (.code c.toNat)
      ['\\', 'u', '0', '0', Nat.digitChar (c.toNat / 16), Nat.digitChar (c.toNat % 16)] c where
  scan rest := by
    simp only [List.cons_append, List.nil_append, scanString, hexUnit?_digitChar _ h]
    cases scanString rest <;> rfl
  join units := by
    rw [joinUnits_code (by omega), Char.ofNat_toNat]

theorem exists_encodes (c : Char) : ∃ unit, Encodes unit (escapeChar c) c := by
  rw [escapeChar]
  split
  · rename_i hQuote
    subst hQuote
    exact ⟨_, encodes_shortEscape rfl⟩
  · rename_i hQuote
    split
    · rename_i hBackslash
      subst hBackslash
      exact ⟨_, encodes_shortEscape rfl⟩
    · rename_i hBackslash
      split
      · rename_i hControl
        rw [escapeControl.eq_def]
        split
        all_goals first | exact ⟨_, encodes_shortEscape rfl⟩ | exact ⟨_, encodes_hexEscape hControl⟩
      · rename_i hControl
        exact ⟨_, encodes_char hQuote hBackslash hControl⟩

theorem scanString_escaped (chars rest : List Char) : ∃ units,
    scanString (chars.flatMap escapeChar ++ '"' :: rest) = some (units, rest) ∧
      joinUnits units = some chars := by
  induction chars with
  | nil => exact ⟨[], by simp [scanString], rfl⟩
  | cons c chars ih =>
    obtain ⟨units, hScan, hJoin⟩ := ih
    obtain ⟨unit, hUnit⟩ := exists_encodes c
    refine ⟨unit :: units, ?_, ?_⟩
    · rw [List.flatMap_cons, List.append_assoc, hUnit.scan, hScan]
      rfl
    · rw [hUnit.join, hJoin]
      rfl

theorem scanToken_quoted (text : String) (rest : List Char) :
    scanToken (quoted text ++ rest) = some (.string (some text), rest) := by
  obtain ⟨units, hScan, hJoin⟩ := scanString_escaped text.toList rest
  rw [quoted, List.cons_append, List.append_assoc, List.cons_append, List.nil_append]
  simp [scanToken, hScan, hJoin]

/-! ## The machine on a text -/

/-- Runs a machine on the tokens of a text. -/
def Machine.feed (machine : Machine) (chars : List Char) : Option Machine :=
  (tokens chars).bind machine.run

namespace Machine

variable {machine : Machine}

theorem feed_blank {c : Char} (h : isBlank c = true) (rest : List Char) :
    machine.feed (c :: rest) = machine.feed rest := by
  rw [feed, tokens, if_pos h, feed]

theorem feed_token {c : Char} {chars rest : List Char} {token : Token} (hBlank : isBlank c = false)
    (h : scanToken (c :: chars) = some (token, rest)) :
    machine.feed (c :: chars) = (machine.step token).bind (·.feed rest) := by
  rw [feed, tokens, if_neg (by simp [hBlank])]
  split
  · rename_i hNone
    rw [h] at hNone
    cases hNone
  · rename_i hSome
    rw [h] at hSome
    cases hSome
    simp only [feed]
    cases tokens rest with
    | none => cases machine.step token <;> rfl
    | some tokens => rfl

theorem feed_lineBreak (indent : Nat) (rest : List Char) :
    machine.feed (lineBreak indent ++ rest) = machine.feed rest := by
  have hSpaces (count : Nat) :
      machine.feed (List.replicate count ' ' ++ rest) = machine.feed rest := by
    induction count with
    | zero => rfl
    | succ count ih => rw [List.replicate_succ, List.cons_append, feed_blank rfl, ih]
  rw [lineBreak, List.cons_append, feed_blank rfl, hSpaces]

theorem feed_quoted (text : String) (rest : List Char) :
    machine.feed (quoted text ++ rest) = (machine.step (.string (some text))).bind (·.feed rest) :=
  feed_token rfl (scanToken_quoted text rest)

end Machine

/-! ## Values without numbers -/

mutual

def isPlain : Json → Bool
  | null | bool _ | string _ => true
  | array items => arePlain items
  | object members => areMembersPlain members
  | int _ | unsupported => false

def arePlain : List Json → Bool
  | [] => true
  | item :: items => item.isPlain && arePlain items

def areMembersPlain : List (String × Json) → Bool
  | [] => true
  | (_, value) :: members => value.isPlain && areMembersPlain members

end

theorem ofMembers_map_some (members : List (String × Json)) :
    ofMembers (members.map fun member => (some member.1, member.2)) = object members := by
  have hAll : (members.map fun member => (some member.1, member.2)).mapM
      (fun entry : Option String × Json => entry.1.map (·, entry.2)) = some members := by
    induction members with
    | nil => rfl
    | cons member members ih => simp [List.mapM_cons, ih]
  rw [ofMembers]
  simp only [hAll]

namespace Machine

/-- The machine takes a value next, for the innermost of the given containers. -/
def Awaits (machine : Machine) (frames : List Frame) : Prop :=
  ∀ token, token ≠ .closeArray → machine.step token = begin frames token

theorem awaits_atValue (frames : List Frame) : (atValue frames).Awaits frames :=
  fun _ _ => by rw [step]

theorem awaits_atFirstItem (frames : List Frame) :
    (atFirstItem frames).Awaits (.array [] :: frames) :=
  fun token hToken => by rw [step]; exact hToken

variable {machine : Machine} {frames : List Frame}

/-- A token that is a value of its own. -/
theorem Awaits.feed_scalar (h : machine.Awaits frames) {c : Char} {chars rest : List Char}
    {value : Json} (hBlank : isBlank c = false)
    (hScan : scanToken (c :: chars) = some (.scalar value, rest)) :
    machine.feed (c :: chars) = (finish value frames).feed rest := by
  rw [feed_token hBlank hScan, h _ (by simp)]
  rfl

theorem Awaits.feed_openArray (h : machine.Awaits frames) (rest : List Char) :
    machine.feed ('[' :: rest) = (atFirstItem frames).feed rest := by
  have hOpen : machine.feed ('[' :: rest) = (machine.step .openArray).bind (·.feed rest) :=
    feed_token rfl rfl
  rw [hOpen, h _ (by simp)]
  rfl

theorem Awaits.feed_openObject (h : machine.Awaits frames) (rest : List Char) :
    machine.feed ('{' :: rest) = (atFirstKey frames).feed rest := by
  have hOpen : machine.feed ('{' :: rest) = (machine.step .openObject).bind (·.feed rest) :=
    feed_token rfl rfl
  rw [hOpen, h _ (by simp)]
  rfl

theorem feed_comma (rest : List Char) :
    machine.feed (',' :: rest) = (machine.step .comma).bind (·.feed rest) := feed_token rfl rfl

theorem feed_closeArray (rest : List Char) :
    machine.feed (']' :: rest) = (machine.step .closeArray).bind (·.feed rest) := feed_token rfl rfl

theorem feed_closeObject (rest : List Char) :
    machine.feed ('}' :: rest) = (machine.step .closeObject).bind (·.feed rest) :=
  feed_token rfl rfl

theorem feed_colon (rest : List Char) :
    machine.feed (':' :: rest) = (machine.step .colon).bind (·.feed rest) := feed_token rfl rfl

/-- A key with its colon. -/
theorem feed_key {done : List (Option String × Json)} {key : String}
    (h : machine.step (.string (some key)) = some (atColon done (some key) frames))
    (rest : List Char) :
    machine.feed (quoted key ++ ':' :: ' ' :: rest) =
      (atValue (.object done (some key) :: frames)).feed rest := by
  rw [feed_quoted, h, Option.bind_some, feed_colon, step, Option.bind_some, feed_blank rfl]

mutual

theorem feed_layout (json : Json) (h : json.isPlain = true) {machine : Machine}
    {frames : List Frame} (hAwaits : machine.Awaits frames) (indent : Nat) (rest : List Char) :
    machine.feed (layout indent json ++ rest) = (finish json frames).feed rest := by
  match json with
  | null =>
    rw [layout]
    exact hAwaits.feed_scalar rfl rfl
  | bool true =>
    rw [layout]
    exact hAwaits.feed_scalar rfl rfl
  | bool false =>
    rw [layout]
    exact hAwaits.feed_scalar rfl rfl
  | string text =>
    rw [layout, feed_quoted, hAwaits _ (by simp)]
    rfl
  | array [] =>
    have hText : layout indent (array []) ++ rest = '[' :: ']' :: rest := by rw [layout]; rfl
    rw [hText, hAwaits.feed_openArray, feed_closeArray]
    rfl
  | array (item :: items) =>
    rw [isPlain, arePlain, Bool.and_eq_true] at h
    have hText : layout indent (array (item :: items)) ++ rest = '[' :: (lineBreak (indent + 1) ++
        (layout (indent + 1) item ++
          (layoutItems (indent + 1) items ++ (lineBreak indent ++ ']' :: rest)))) := by
      simp [layout]
    rw [hText, hAwaits.feed_openArray, feed_lineBreak,
      feed_layout item h.1 (awaits_atFirstItem frames)]
    exact feed_layoutItems items h.2 [item] frames (indent + 1) indent rest
  | object [] =>
    have hText : layout indent (object []) ++ rest = '{' :: '}' :: rest := by rw [layout]; rfl
    rw [hText, hAwaits.feed_openObject, feed_closeObject]
    rfl
  | object ((key, value) :: members) =>
    rw [isPlain, areMembersPlain, Bool.and_eq_true] at h
    have hText : layout indent (object ((key, value) :: members)) ++ rest =
        '{' :: (lineBreak (indent + 1) ++ (quoted key ++ ':' :: ' ' ::
          (layout (indent + 1) value ++
            (layoutMembers (indent + 1) members ++ (lineBreak indent ++ '}' :: rest))))) := by
      simp [layout]
    rw [hText, hAwaits.feed_openObject, feed_lineBreak, feed_key rfl,
      feed_layout value h.1 (awaits_atValue _)]
    exact feed_layoutMembers members h.2 [(key, value)] (some key) frames (indent + 1) indent rest
  | int _ => cases h
  | unsupported => cases h

theorem feed_layoutItems (items : List Json) (h : arePlain items = true) (done : List Json)
    (frames : List Frame) (indent close : Nat) (rest : List Char) :
    (afterElement (.array done) frames).feed
        (layoutItems indent items ++ (lineBreak close ++ ']' :: rest)) =
      (finish (array (done.reverse ++ items)) frames).feed rest := by
  match items with
  | [] =>
    rw [layoutItems, List.nil_append, feed_lineBreak, feed_closeArray, List.append_nil]
    rfl
  | item :: items =>
    rw [arePlain, Bool.and_eq_true] at h
    have hText : layoutItems indent (item :: items) ++ (lineBreak close ++ ']' :: rest) =
        ',' :: (lineBreak indent ++ (layout indent item ++
          (layoutItems indent items ++ (lineBreak close ++ ']' :: rest)))) := by
      simp [layoutItems]
    rw [hText, feed_comma, step, Option.bind_some, feed_lineBreak,
      feed_layout item h.1 (awaits_atValue _)]
    have hItems := feed_layoutItems items h.2 (item :: done) frames indent close rest
    rwa [List.reverse_cons, List.append_assoc] at hItems

theorem feed_layoutMembers (members : List (String × Json)) (h : areMembersPlain members = true)
    (done : List (String × Json)) (key : Option String) (frames : List Frame) (indent close : Nat)
    (rest : List Char) :
    (afterElement (.object (done.map fun member => (some member.1, member.2)) key) frames).feed
        (layoutMembers indent members ++ (lineBreak close ++ '}' :: rest)) =
      (finish (object (done.reverse ++ members)) frames).feed rest := by
  match members with
  | [] =>
    rw [layoutMembers, List.nil_append, feed_lineBreak, feed_closeObject, List.append_nil, step,
      ← List.map_reverse, ofMembers_map_some]
    rfl
  | (name, value) :: members =>
    rw [areMembersPlain, Bool.and_eq_true] at h
    have hText : layoutMembers indent ((name, value) :: members) ++
          (lineBreak close ++ '}' :: rest) =
        ',' :: (lineBreak indent ++ (quoted name ++ ':' :: ' ' :: (layout indent value ++
          (layoutMembers indent members ++ (lineBreak close ++ '}' :: rest))))) := by
      simp [layoutMembers]
    rw [hText, feed_comma, step, Option.bind_some, feed_lineBreak, feed_key rfl,
      feed_layout value h.1 (awaits_atValue _)]
    have hMembers :=
      feed_layoutMembers members h.2 ((name, value) :: done) (some name) frames indent close rest
    rwa [List.reverse_cons, List.append_assoc] at hMembers

end

end Machine

theorem read?_eq_feed (text : String) :
    read? text = ((Machine.atValue []).feed text.toList).bind Machine.result? :=
  (Option.bind_assoc ..).symm

theorem read?_pretty {json : Json} (h : json.isPlain = true) : read? json.pretty = some json := by
  have hFeed := Machine.feed_layout json h (Machine.awaits_atValue []) 0 []
  have hEnd : (Machine.finish json []).feed [] = some (.finished json) := by
    rw [Machine.feed, tokens]
    rfl
  rw [List.append_nil, hEnd] at hFeed
  rw [read?_eq_feed, pretty, String.toList_ofList, hFeed]
  rfl

end TemplateBinding.Json
