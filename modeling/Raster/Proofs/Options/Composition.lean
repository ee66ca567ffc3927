/-
# Lists of options, one behind the other

A list of options is cut at its commas and read item by item. So two lists with a comma between
them are read one after the other (`parse_append`): what the second one says counts, and so does
the first fault.

A key is kept in one spelling (`Normal`), whatever way it came into the options (`Built.tidy`):

| spelled | kept |
| --- | --- |
| with blanks around it | without |
| with capitals | in lower case |
| with `-` | with `_` |

Spellings that are kept alike name the same option, and whatever is asked or done in one spelling
comes out as in the other (`TakenAlike`); an error names the option as it was asked for.
-/
import Raster.Proofs.Fields
import Raster.Proofs.Options
import Raster.Proofs.Text.Trim

namespace Raster

/-! ### Cutting and adding -/

/-- Splitting gives a piece, if only an empty one. -/
theorem Text.splitChars_ne_nil (cut : Char → Bool) (cs : List Char) : splitChars cut cs ≠ [] := by
  fun_cases splitChars cut cs <;> exact List.cons_ne_nil _ _

/-- A text with a cut in it is cut in front of it and behind it. -/
theorem Text.splitChars_append {cut : Char → Bool} {sep : Char} (hsep : cut sep = true)
    (front back : List Char) :
    splitChars cut (front ++ sep :: back) = splitChars cut front ++ splitChars cut back := by
  induction front with
  | nil =>
    show splitChars cut (sep :: back) = [] :: splitChars cut back
    rw [splitChars, if_pos hsep]
  | cons c front ih =>
    obtain ⟨piece, pieces, hpieces⟩ := List.exists_cons_of_ne_nil (splitChars_ne_nil cut front)
    rw [List.cons_append, splitChars, splitChars, ih, hpieces]
    split <;> rfl

namespace Options

/-- Reading two lists is reading one after the other; a complaint in the first is the one made. -/
theorem addItems_append (options : Options) (front back : List (List Char)) :
    addItems options (front ++ back) = addItems options front >>= (addItems · back) := by
  induction front generalizing options with
  | nil => rfl
  | cons item front ih =>
    rw [List.cons_append, addItems, addItems]
    dsimp only
    split
    · exact ih options
    · split
      · rfl
      · exact ih _

/-- Items are added to options as they are added to none. -/
theorem addItems_extend (on options : Options) (items : List (List Char)) :
    addItems (on.extend options) items = (addItems options items).map on.extend := by
  induction items generalizing options with
  | nil => rfl
  | cons item items ih =>
    rw [addItems, addItems]
    dsimp only
    split
    · exact ih options
    · split
      · rfl
      · rw [set, ← Fields.extend_insert]
        exact ih _

/-- **Two lists with a comma between them are read one after the other:** the later values win,
and the first fault counts. -/
theorem parse_append (a b : String) :
    parse (a ++ "," ++ b) = (do
      let front ← parse a
      let back ← parse b
      return front.extend back) := by
  have htext : (a ++ "," ++ b).toList = a.toList ++ ',' :: b.toList := by
    simp only [String.toList_append, List.append_assoc]
    rfl
  rw [parse, htext, Text.splitChars_append (by rfl), addItems_append]
  refine congrArg (parse a >>= ·) (funext fun front => ?_)
  calc addItems front (Text.splitChars (· == ',') b.toList)
      = (parse b).map front.extend := addItems_extend front Fields.empty _
    _ = parse b >>= fun back => .ok (front.extend back) := by cases parse b <;> rfl

/-! ### Spellings -/

/-- The character that a key has in place of another one. -/
def keyChar (c : Char) : Char := if c.toLower = '-' then '_' else c.toLower

/-- A key is trimmed and written with the characters of keys. -/
theorem toList_normalKey (key : String) :
    (normalKey key).toList = (Text.trimChars key.toList).map keyChar := by
  rw [normalKey, String.toList_ofList, List.map_map]
  rfl

/-- Writing a key makes no blanks and removes none. -/
theorem isBlank_keyChar (c : Char) : Text.isBlank (keyChar c) = Text.isBlank c := by
  rw [← Text.isBlank_toLower c, keyChar]
  split
  · rename_i hdash
    rw [hdash]
    rfl
  · rfl

/-- And leaves no capitals. -/
theorem isUpper_keyChar (c : Char) : (keyChar c).isUpper = false := by
  rw [keyChar]
  split
  · rfl
  · exact Text.isUpper_toLower c

/-- And no dashes. -/
theorem keyChar_ne_dash (c : Char) : keyChar c ≠ '-' := by
  rw [keyChar]
  split
  · decide
  · assumption

/-- The spelling of keys: no blanks around them, no capitals and no `-`. -/
structure Normal (key : String) : Prop where
  trimmed : Text.trim key = key
  lower : ∀ c ∈ key.toList, c.isUpper = false
  undashed : '-' ∉ key.toList

/-- So a key in its normal spelling is normal. -/
theorem normal_normalKey (key : String) : Normal (normalKey key) where
  trimmed := by
    rw [Text.trim, toList_normalKey, Text.trimChars_map isBlank_keyChar, Text.trimChars_trimChars,
      ← toList_normalKey, String.ofList_toList]
  lower := by
    rw [toList_normalKey, List.forall_mem_map]
    exact fun c _ => isUpper_keyChar c
  undashed := by
    rw [toList_normalKey, List.mem_map]
    rintro ⟨c, -, hdash⟩
    exact keyChar_ne_dash c hdash

/-! ### The keys of options -/

/-- Options whose keys are all in their normal spelling. -/
def Tidy (options : Options) : Prop := ∀ key ∈ options.names, Normal key

/-- There is no key yet. -/
theorem tidy_empty : Tidy Fields.empty := fun _ hkey => absurd hkey List.not_mem_nil

namespace Tidy

variable {options other : Options}

/-- Setting an option normalises its key. -/
theorem set (htidy : options.Tidy) (key value : String) : (options.set key value).Tidy := by
  intro name hname
  obtain ⟨found, hfound⟩ := Fields.mem_names.1 hname
  rw [Options.set, Fields.get?_insert] at hfound
  split at hfound
  · rename_i hnew
    exact hnew ▸ normal_normalKey key
  · exact htidy name (Fields.mem_names.2 ⟨found, hfound⟩)

/-- Options that are taken over have normal keys already. -/
theorem extend (htidy : options.Tidy) (hother : other.Tidy) : Tidy (options.extend other) := by
  intro name hname
  obtain ⟨found, hfound⟩ := Fields.mem_names.1 hname
  rw [Fields.get?_extend, Option.or_eq_some_iff] at hfound
  rcases hfound with hfound | ⟨-, hfound⟩
  · exact hother name (Fields.mem_names.2 ⟨found, hfound⟩)
  · exact htidy name (Fields.mem_names.2 ⟨found, hfound⟩)

/-- Forgetting an option leaves the others. -/
theorem unset (htidy : options.Tidy) (key : String) : (options.unset key).Tidy := by
  intro name hname
  obtain ⟨found, hfound⟩ := Fields.mem_names.1 hname
  rw [Options.unset, Fields.get?_erase] at hfound
  split at hfound
  · cases hfound
  · exact htidy name (Fields.mem_names.2 ⟨found, hfound⟩)

/-- And lists are read option by option. -/
theorem addItems (htidy : options.Tidy) {items : List (List Char)}
    (hok : Options.addItems options items = .ok other) : other.Tidy := by
  induction items generalizing options with
  | nil =>
    obtain rfl := Except.ok.inj hok
    exact htidy
  | cons item items ih =>
    rw [Options.addItems] at hok
    dsimp only at hok
    split at hok
    · exact ih htidy hok
    · split at hok
      · cases hok
      · exact ih (htidy.set _ _) hok

end Tidy

/-- Options that come about by reading lists, setting and forgetting options, and putting options
on top of others. -/
inductive Built : Options → Prop
  | empty : Built Fields.empty
  | parse {text : String} {options : Options} (hok : parse text = .ok options) : Built options
  | set {options : Options} (hbuilt : Built options) (key value : String) :
    Built (options.set key value)
  | extend {options other : Options} (hbuilt : Built options) (hother : Built other) :
    Built (options.extend other)
  | unset {options : Options} (hbuilt : Built options) (key : String) : Built (options.unset key)

/-- **However options came about,** their keys are in the normal spelling. -/
theorem Built.tidy {options : Options} (hbuilt : Built options) : options.Tidy := by
  induction hbuilt with
  | empty => exact tidy_empty
  | parse hok => exact tidy_empty.addItems hok
  | set _ key value ih => exact ih.set key value
  | extend _ _ ih ihother => exact ih.extend ihother
  | unset _ key ih => exact ih.unset key

end Options

/-! ### Taking an option in another spelling -/

/-- The same complaint, if it is about an option, with the option in another spelling. -/
def Error.respell (key : String) : Error → Error
  | .badOption _ message => .badOption key message
  | e => e

namespace Options

variable {α : Type}

/-- The options that are left after one was to be taken: all of them, if it could not be read. -/
def left (options : Options) : Except Error (α × Options) → Options
  | .ok (_, rest) => rest
  | .error _ => options

/-- Two spellings of an option are taken alike: with the same value and the same options left, or
with the same complaint about either spelling, and then the option is still there. -/
structure TakenAlike (options : Options) (take : String → Except Error (Option α × Options))
    (a b : String) : Prop where
  result : take b = (take a).mapError (.respell b)
  left : options.left (take b) = options.left (take a)
  kept : ∀ e, take a = .error e → (∃ message, e = .badOption a message) ∧
    options.left (take a) = options ∧ options.has a = true

/-- Taking an option, case by case. -/
theorem takeParsed_eq (options : Options) (key : String) (parse : String → Except String α) :
    options.takeParsed key parse = match options.value? key with
      | none => .ok (none, options.unset key)
      | some text => match parse text with
        | .ok value => .ok (some value, options.unset key)
        | .error message => .error (.badOption key message) := by
  rw [takeParsed, getParsed]
  cases options.value? key with
  | none => rfl
  | some text =>
    dsimp only
    cases parse text <;> rfl

/-- Two spellings of one key find the same value and complain about it in the same words. -/
theorem takenAlike_takeParsed (options : Options) (parse : String → Except String α) {a b : String}
    (hspelling : normalKey a = normalKey b) :
    options.TakenAlike (options.takeParsed · parse) a b := by
  have hvalue : options.value? b = options.value? a := by rw [value?, value?, hspelling]
  have hunset : options.unset b = options.unset a := by rw [unset, unset, hspelling]
  have hresult : options.takeParsed b parse
      = (options.takeParsed a parse).mapError (.respell b) := by
    rw [takeParsed_eq, takeParsed_eq, hvalue, hunset]
    cases options.value? a with
    | none => rfl
    | some text =>
      dsimp only
      cases parse text <;> rfl
  refine ⟨hresult, ?_, fun e he => ?_⟩
  · rw [hresult]
    cases options.takeParsed a parse <;> rfl
  · have hleft : options.left (options.takeParsed a parse) = options := by rw [he, left]
    rw [takeParsed_eq] at he
    split at he
    · cases he
    · rename_i hfound
      split at he
      · cases he
      · obtain rfl := Except.error.inj he
        exact ⟨⟨_, rfl⟩, hleft, by rw [has, hfound]; rfl⟩

/-- What `readBool` reads. -/
def boolean (value : String) : Except String Bool :=
  let word := Text.lower value
  if ["true", "yes", "on", "1"].contains word then .ok true
  else if ["false", "no", "off", "0"].contains word then .ok false
  else .error s!"\"{word}\" is not a boolean"

/-- Taking a truth value is taking a text that is read as one. -/
theorem takeBool_eq (options : Options) (key : String) :
    options.takeBool key = options.takeParsed key boolean := by
  have hread : ∀ text, readBool key text = (boolean text).mapError (.badOption key) := by
    intro text
    rw [readBool, boolean]
    split
    · rfl
    · split <;> rfl
  rw [takeParsed_eq, takeBool, getBool]
  cases options.value? key with
  | none => rfl
  | some text =>
    dsimp only
    rw [hread]
    cases boolean text <;> rfl

/-- So it is taken alike too. -/
theorem takenAlike_takeBool (options : Options) {a b : String}
    (hspelling : normalKey a = normalKey b) : options.TakenAlike options.takeBool a b := by
  rw [show options.takeBool = (options.takeParsed · boolean) from funext (takeBool_eq options)]
  exact takenAlike_takeParsed options boolean hspelling

/-- **Lists of options compose, and spellings do not matter.** -/
theorem parse_append_spelling :
    (∀ a b : String, parse (a ++ "," ++ b) = (do
      let front ← parse a
      let back ← parse b
      return front.extend back)) ∧
    (∀ options : Options, Built options → ∀ key ∈ options.names, Normal key) ∧
    ∀ (options : Options) (a b : String), normalKey a = normalKey b →
      options.value? a = options.value? b ∧ options.has a = options.has b ∧
        options.unset a = options.unset b ∧ options.TakenAlike options.takeBool a b ∧
        ∀ {α : Type} (parse : String → Except String α),
          options.TakenAlike (options.takeParsed · parse) a b := by
  refine ⟨parse_append, fun options hbuilt => hbuilt.tidy, fun options a b hspelling => ?_⟩
  have hvalue : options.value? a = options.value? b := by rw [value?, value?, hspelling]
  refine ⟨hvalue, by rw [has, has, hvalue], by rw [unset, unset, hspelling],
    takenAlike_takeBool options hspelling, fun parse => ?_⟩
  exact takenAlike_takeParsed options parse hspelling

/-- An option with a bad number, asked for in two spellings. -/
theorem parse_append_spelling_number :
    ∃ options, parse "Fail-On = 7x" = .ok options ∧ Built options ∧ Normal "fail_on" ∧
      normalKey "Fail-On" = normalKey " fail_on " ∧
      options.takeParsed " fail_on " (number Number.byte)
        = .error (.badOption " fail_on " "invalid digit found in string") := by
  have hparse : parse "Fail-On = 7x" = .ok (set Fields.empty "fail_on" "7x") := by decide +kernel
  have hbuilt := Built.parse hparse
  have hspelling : normalKey "Fail-On" = normalKey " fail_on " := by decide +kernel
  have hfails : (set Fields.empty "fail_on" "7x").takeParsed "Fail-On" (number Number.byte)
      = .error (.badOption "Fail-On" "invalid digit found in string") := by decide +kernel
  obtain ⟨-, hnormal, halike⟩ := parse_append_spelling
  obtain ⟨-, -, -, -, htaken⟩ := halike (set Fields.empty "fail_on" "7x") _ _ hspelling
  refine ⟨_, hparse, hbuilt, hnormal _ hbuilt _ (by decide +kernel), hspelling, ?_⟩
  rw [(htaken (number Number.byte)).result, hfails]
  rfl

end Options

end Raster
