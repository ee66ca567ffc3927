/-
# Which loads a key tells apart

The bytes behind a key are texts with a byte behind each of them, so they are read back from
left to right (`Bytes.ofText_append_cons_inj`), if no text holds the byte behind it:

| text | byte behind it |
| --- | --- |
| loader, path | 0 |
| name of an option | `=` |
| value of an option | 0 |

The settings come last. There is no `=` in them, so where one is left there is another option
(`optionBytes_append_inj`). What holds such a byte may be read in two ways
(`material_ambiguous`).
-/
import Raster.Load.Key
import Raster.Proofs.Text.Utf8

namespace Raster

/-- A list is cut in one way only at the first of its separators. -/
theorem append_cons_inj {α : Type} {sep : α} :
    ∀ {xs ys as bs : List α}, sep ∉ xs → sep ∉ ys → xs ++ sep :: as = ys ++ sep :: bs →
      xs = ys ∧ as = bs
  | [], [], _, _, _, _, h => ⟨rfl, (List.cons.inj h).2⟩
  | [], _ :: _, _, _, _, hys, h => absurd (List.cons.inj h).1 (List.ne_of_not_mem_cons hys)
  | _ :: _, [], _, _, hxs, _, h => absurd (List.cons.inj h).1.symm (List.ne_of_not_mem_cons hxs)
  | _ :: _, _ :: _, _, _, hxs, hys, h => by
    obtain ⟨rfl, htail⟩ := List.cons.inj h
    obtain ⟨rfl, hrest⟩ := append_cons_inj (List.not_mem_of_not_mem_cons hxs)
      (List.not_mem_of_not_mem_cons hys) htail
    exact ⟨rfl, hrest⟩

/-- A text is read back up to the byte behind it. -/
theorem Bytes.ofText_append_cons_inj {b : UInt8} (hb : b.toNat < 128) {s t : String}
    {rest rest' : Bytes} (hs : Char.ofNat b.toNat ∉ s.toList) (ht : Char.ofNat b.toNat ∉ t.toList)
    (h : ofText s ++ b :: rest = ofText t ++ b :: rest') : s = t ∧ rest = rest' := by
  obtain ⟨htext, hrest⟩ := append_cons_inj (fun hmem => hs ((mem_ofText_iff hb).1 hmem))
    (fun hmem => ht ((mem_ofText_iff hb).1 hmem)) h
  exact ⟨ofText_injective htext, hrest⟩

namespace LoadKey

/-! ### Settings -/

/-- The settings as text. -/
def settingsText (s : LoadSettings) : List Char :=
  s.access.label.toList ++ ':' :: (s.failOn.label.toList ++ ':' :: ((toString s.memory).toList ++
    ':' :: ((toString s.disc).toList ++ ':' :: Nat.toDigits 10 s.discThreshold.toNat)))

/-- The settings go into a key as their text. -/
theorem ofSettings_eq (s : LoadSettings) :
    ofSettings s = Bytes.ofText (String.ofList (settingsText s)) := by
  have hjoin : Text.join ":" [s.access.label, s.failOn.label, toString s.memory, toString s.disc,
      toString s.discThreshold] = s.access.label ++ ":" ++ s.failOn.label ++ ":" ++
        toString s.memory ++ ":" ++ toString s.disc ++ ":" ++ Nat.repr s.discThreshold.toNat := rfl
  refine congrArg Bytes.ofText (String.toList_inj.1 ?_)
  rw [hjoin, String.toList_ofList, settingsText]
  simp only [String.toList_append, Nat.toList_repr, List.append_assoc]
  rfl

/-- No label has the signs in it that texts are put together with. -/
theorem notMem_label_access (a : Access) : ':' ∉ a.label.toList ∧ '=' ∉ a.label.toList := by
  cases a <;> decide

/-- Nor has one of these. -/
theorem notMem_label_failOn (f : FailOn) : ':' ∉ f.label.toList ∧ '=' ∉ f.label.toList := by
  cases f <;> decide

/-- Nor a truth value. -/
theorem notMem_toString_bool (b : Bool) :
    ':' ∉ (toString b).toList ∧ '=' ∉ (toString b).toList := by
  cases b <;> decide

/-- No settings look like an option. -/
theorem notMem_ofSettings (s : LoadSettings) : 61 ∉ ofSettings s := by
  rw [ofSettings_eq, Bytes.mem_ofText_iff (by decide), String.toList_ofList]
  have hdigits : '=' ∉ Nat.toDigits 10 s.discThreshold.toNat := fun hmem =>
    absurd (Nat.isDigit_of_mem_toDigits (by decide) (by decide) hmem) (by decide)
  have hcolon : '=' ≠ ':' := by decide
  simp only [settingsText, List.mem_append, List.mem_cons, not_or]
  exact ⟨(notMem_label_access _).2, hcolon, (notMem_label_failOn _).2, hcolon,
    (notMem_toString_bool _).2, hcolon, (notMem_toString_bool _).2, hcolon, hdigits⟩

/-- And labels differ where their meanings do. -/
theorem label_access_inj {a b : Access} (h : a.label.toList = b.label.toList) : a = b := by
  cases a <;> cases b <;> first | rfl | exact absurd h (by decide)

/-- These as well. -/
theorem label_failOn_inj {f g : FailOn} (h : f.label.toList = g.label.toList) : f = g := by
  cases f <;> cases g <;> first | rfl | exact absurd h (by decide)

/-- And truth values. -/
theorem toString_bool_inj {b c : Bool} (h : (toString b).toList = (toString c).toList) :
    b = c := by
  cases b <;> cases c <;> first | rfl | exact absurd h (by decide)

/-- **Settings are told apart,** but for whether the cache is asked. -/
theorem ofSettings_inj {s t : LoadSettings} (h : ofSettings s = ofSettings t) :
    s.access = t.access ∧ s.failOn = t.failOn ∧ s.memory = t.memory ∧ s.disc = t.disc ∧
      s.discThreshold = t.discThreshold := by
  rw [ofSettings_eq, ofSettings_eq] at h
  have htext := String.ofList_injective (Bytes.ofText_injective h)
  unfold settingsText at htext
  obtain ⟨haccess, htext⟩ :=
    append_cons_inj (notMem_label_access _).1 (notMem_label_access _).1 htext
  obtain ⟨hfail, htext⟩ :=
    append_cons_inj (notMem_label_failOn _).1 (notMem_label_failOn _).1 htext
  obtain ⟨hmemory, htext⟩ :=
    append_cons_inj (notMem_toString_bool _).1 (notMem_toString_bool _).1 htext
  obtain ⟨hdisc, hdigits⟩ :=
    append_cons_inj (notMem_toString_bool _).1 (notMem_toString_bool _).1 htext
  have hnumber : s.discThreshold.toNat = t.discThreshold.toNat := by
    rw [← Nat.ofDigitChars_ten_toDigits (n := s.discThreshold.toNat), hdigits,
      Nat.ofDigitChars_ten_toDigits]
  exact ⟨label_access_inj haccess, label_failOn_inj hfail, toString_bool_inj hmemory,
    toString_bool_inj hdisc, UInt64.toNat_inj.1 hnumber⟩

/-! ### Options -/

/-- The bytes of one option. -/
def optionBytes (e : String × String) : Bytes :=
  Bytes.ofText e.1 ++ 61 :: (Bytes.ofText e.2 ++ [0])

/-- Options go into a key one after another. -/
theorem ofOptions_eq (options : Options) : ofOptions options = options.toList.flatMap optionBytes :=
  congrArg (List.flatMap · options.toList) (funext fun _ => List.append_assoc _ _ _)

/-- Every option brings a sign of equality. -/
theorem mem_optionBytes (e : String × String) : 61 ∈ optionBytes e :=
  List.mem_append_right _ List.mem_cons_self

/-- **Options are told apart from each other and from what is behind them.** -/
theorem optionBytes_append_inj {rest rest' : Bytes} (hrest : 61 ∉ rest) (hrest' : 61 ∉ rest') :
    ∀ {l l' : List (String × String)},
      (∀ e ∈ l, '=' ∉ e.1.toList ∧ '\x00' ∉ e.2.toList) →
      (∀ e ∈ l', '=' ∉ e.1.toList ∧ '\x00' ∉ e.2.toList) →
      l.flatMap optionBytes ++ rest = l'.flatMap optionBytes ++ rest' → l = l' ∧ rest = rest'
  | [], [], _, _, h => ⟨rfl, h⟩
  | [], e :: l', _, _, h => by
    have hmem : 61 ∈ (e :: l').flatMap optionBytes :=
      List.mem_flatMap.2 ⟨e, List.mem_cons_self, mem_optionBytes e⟩
    have hbytes : rest = (e :: l').flatMap optionBytes ++ rest' := h
    exact absurd (hbytes ▸ List.mem_append_left rest' hmem) hrest
  | e :: l, [], _, _, h => by
    have hmem : 61 ∈ (e :: l).flatMap optionBytes :=
      List.mem_flatMap.2 ⟨e, List.mem_cons_self, mem_optionBytes e⟩
    have hbytes : (e :: l).flatMap optionBytes ++ rest = rest' := h
    exact absurd (hbytes ▸ List.mem_append_left rest hmem) hrest'
  | (key, value) :: l, (key', value') :: l', hl, hl', h => by
    rw [List.forall_mem_cons] at hl hl'
    simp only [List.flatMap_cons, optionBytes, List.append_assoc, List.cons_append,
      List.nil_append] at h
    obtain ⟨hkey, hvalues⟩ := Bytes.ofText_append_cons_inj (b := 61) (by decide) hl.1.1 hl'.1.1 h
    obtain ⟨hvalue, hothers⟩ :=
      Bytes.ofText_append_cons_inj (b := 0) (by decide) hl.1.2 hl'.1.2 hvalues
    obtain ⟨hlist, hends⟩ := optionBytes_append_inj hrest hrest' hl.2 hl'.2 hothers
    exact ⟨List.cons_eq_cons.2 ⟨Prod.ext hkey hvalue, hlist⟩, hends⟩

/-! ### Keys -/

/-- A load none of whose texts holds the byte that is put behind it. -/
structure Plain (loader path : String) (options : Options) : Prop where
  loader : '\x00' ∉ loader.toList
  path : '\x00' ∉ path.toList
  options : ∀ key value, options.get? key = some value →
    '=' ∉ key.toList ∧ '\x00' ∉ value.toList

/-- **Keys tell loads of files apart:** two of them have one material exactly where loader, path,
options and settings are the same, except for whether the cache is asked. -/
theorem material_eq_iff {loader loader' path path' : String} {options options' : Options}
    (s s' : LoadSettings) (hplain : Plain loader path options)
    (hplain' : Plain loader' path' options') :
    material loader (.file path) options s = material loader' (.file path') options' s' ↔
      loader = loader' ∧ path = path' ∧ options = options' ∧ s.access = s'.access ∧
        s.failOn = s'.failOn ∧ s.memory = s'.memory ∧ s.disc = s'.disc ∧
        s.discThreshold = s'.discThreshold := by
  constructor
  · intro h
    have hbytes := Option.some.inj h
    simp only [ofOptions_eq, List.append_assoc, List.cons_append] at hbytes
    obtain ⟨hloader, hinput⟩ :=
      Bytes.ofText_append_cons_inj (b := 0) (by decide) hplain.loader hplain'.loader hbytes
    have hfile := List.cons.inj (List.append_cancel_left hinput)
    obtain ⟨hpath, hrest⟩ :=
      Bytes.ofText_append_cons_inj (b := 0) (by decide) hplain.path hplain'.path hfile.2
    obtain ⟨hlist, hsettings⟩ := optionBytes_append_inj (notMem_ofSettings s)
      (notMem_ofSettings s') (fun e he => hplain.options _ _ (Fields.mem_toList.1 he))
      (fun e he => hplain'.options _ _ (Fields.mem_toList.1 he)) hrest
    have hoptions : options = options' :=
      Fields.ext_get? fun name => congrArg (Fields.find name) hlist
    exact ⟨hloader, hpath, hoptions, ofSettings_inj hsettings⟩
  · rintro ⟨rfl, rfl, rfl, haccess, hfail, hmemory, hdisc, hthreshold⟩
    simp only [material, ofSettings, haccess, hfail, hmemory, hdisc, hthreshold]

/-- The second page of a file is not mistaken for the first one. -/
theorem material_eq_iff_pages :
    let first : Options := Fields.empty.insert "page" "0"
    let second : Options := Fields.empty.insert "page" "1"
    Plain "tiffload" "scan.tif" first ∧ Plain "tiffload" "scan.tif" second ∧
      material "tiffload" (.file "scan.tif") first {} ≠
        material "tiffload" (.file "scan.tif") second {} := by
  intro first second
  have hplain : ∀ page : String, '\x00' ∉ page.toList →
      Plain "tiffload" "scan.tif" (Fields.empty.insert "page" page) := by
    refine fun page hpage => ⟨by decide, by decide, fun key value hfound => ?_⟩
    rw [Fields.get?_insert] at hfound
    split at hfound
    · rename_i hkey
      obtain rfl := Option.some.inj hfound
      exact ⟨by rw [hkey]; decide, hpage⟩
    · cases hfound
  have hfirst := hplain "0" (by decide)
  have hsecond := hplain "1" (by decide)
  refine ⟨hfirst, hsecond, fun h => ?_⟩
  have hoptions := ((material_eq_iff {} {} hfirst hsecond).1 h).2.2.1
  exact absurd hoptions (by decide)

/-- **What keys do not tell apart:** an option whose value goes on behind a zero like another
option, and the two options. -/
theorem material_ambiguous :
    ∃ one two, Options.parse "a=1\x00b=2" = .ok one ∧ Options.parse "a=1,b=2" = .ok two ∧
      one.value? "b" = none ∧ two.value? "b" = some "2" ∧
      material "tiffload" (.file "scan.tif") one {} =
        material "tiffload" (.file "scan.tif") two {} := by
  refine ⟨Fields.empty.insert "a" "1\x00b=2", (Fields.empty.insert "a" "1").insert "b" "2",
    by rfl, by rfl, ?_, ?_, ?_⟩ <;> decide +kernel

end LoadKey

end Raster
