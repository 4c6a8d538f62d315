import Preflight.Proofs.Text.Words
import Preflight.Style.Color

/-!
This module contains which texts describe a color, which color that is, and what is wrong with the
others.
-/

namespace Preflight

namespace Text

def IsHexDigit (c : Char) (n : Nat) : Prop :=
  n < 16 ∧ (c = Nat.digitChar n ∨ c = (Nat.digitChar n).toUpper)

theorem hexDigit?_eq_some_iff {c : Char} {n : Nat} : hexDigit? c = some n ↔ IsHexDigit c n := by
  constructor
  · intro h
    have hall : ∀ i < 128, (hexDigit? (Char.ofNat i)).all (fun n =>
        Char.ofNat i = Nat.digitChar n ∨ Char.ofNat i = (Nat.digitChar n).toUpper) = true := by
      decide
    obtain ⟨hc, hn⟩ := lt_of_hexDigit?_eq_some h
    have hdigit := hall c.toNat hc
    rw [Char.ofNat_toNat, h, Option.all_some, decide_eq_true_eq] at hdigit
    exact ⟨hn, hdigit⟩
  · rintro ⟨hn, hc⟩
    have hall : ∀ n < 16, hexDigit? (Nat.digitChar n) = some n ∧
        hexDigit? (Nat.digitChar n).toUpper = some n := by
      decide
    rcases hc with rfl | rfl
    · exact (hall n hn).1
    · exact (hall n hn).2

end Text

namespace Attribute

theorem ofName?_eq_some_iff {word : Text} {a : Attribute} :
    ofName? word = some a ↔ a.name.toList = word := by
  constructor
  · intro h
    simpa using List.find?_some h
  · rintro rfl
    cases a <;> decide

theorem ofName?_eq_none_iff {word : Text} :
    ofName? word = none ↔ ∀ a : Attribute, a.name.toList ≠ word := by
  rw [Option.eq_none_iff_forall_ne_some]
  exact forall_congr' fun a => not_congr ofName?_eq_some_iff

end Attribute

namespace Attributes

theorem eq_of_contains_iff {s t : Attributes}
    (h : ∀ a, s.contains a = true ↔ t.contains a = true) : s = t := by
  have heq : ∀ a, s.contains a = t.contains a := fun a => Bool.eq_iff_iff.2 (h a)
  obtain ⟨_, _, _, _, _⟩ := s
  obtain ⟨_, _, _, _, _⟩ := t
  rw [Attributes.mk.injEq]
  exact ⟨heq .bold, heq .dim, heq .underline, heq .blink, heq .reverse⟩

theorem contains_none (a : Attribute) : none.contains a = false := by
  cases a <;> rfl

end Attributes

namespace Color

def IsChannel (high low : Char) (channel : UInt8) : Prop :=
  ∃ m n, Text.IsHexDigit high m ∧ Text.IsHexDigit low n ∧ channel.toNat = 16 * m + n

def IsHex (word : Text) (red green blue : UInt8) : Prop :=
  ∃ r₁ r₂ g₁ g₂ b₁ b₂, word = ['#', r₁, r₂, g₁, g₂, b₁, b₂] ∧
    IsChannel r₁ r₂ red ∧ IsChannel g₁ g₂ green ∧ IsChannel b₁ b₂ blue

theorem isChannel_iff {high low : Char} {channel : UInt8} :
    IsChannel high low channel ↔ (Text.hexDigit? high).isSome ∧ (Text.hexDigit? low).isSome ∧
      Text.hexByte? [high, low] = some channel := by
  unfold IsChannel
  simp only [← Text.hexDigit?_eq_some_iff]
  have hvalue : ∀ {m n : Nat}, m < 16 → n < 16 →
      (UInt8.ofNat (m * 16 + n)).toNat = 16 * m + n := by
    intro m n hm hn
    rw [UInt8.toNat_ofNat_of_lt' (by simp [UInt8.size]; omega), Nat.mul_comm]
  constructor
  · rintro ⟨m, n, hhigh, hlow, hchannel⟩
    have hm := (Text.lt_of_hexDigit?_eq_some hhigh).2
    have hn := (Text.lt_of_hexDigit?_eq_some hlow).2
    refine ⟨Option.isSome_of_eq_some hhigh, Option.isSome_of_eq_some hlow, ?_⟩
    rw [Text.hexByte?_pair hhigh hlow, Option.some_inj, ← UInt8.toNat_inj, hvalue hm hn, hchannel]
  · rintro ⟨hhigh, hlow, hchannel⟩
    obtain ⟨m, hm⟩ := Option.isSome_iff_exists.1 hhigh
    obtain ⟨n, hn⟩ := Option.isSome_iff_exists.1 hlow
    refine ⟨m, n, hm, hn, ?_⟩
    rw [Text.hexByte?_pair hm hn, Option.some_inj] at hchannel
    rw [← hchannel, hvalue (Text.lt_of_hexDigit?_eq_some hm).2 (Text.lt_of_hexDigit?_eq_some hn).2]

theorem digits?_cons_eq_some_iff {digits : Text} :
    digits? ('#' :: digits) = some digits ↔
      digits.length = 6 ∧ ∀ c ∈ digits, (Text.hexDigit? c).isSome := by
  constructor
  · intro h
    obtain ⟨_, hdigits, hlength⟩ := exists_of_digits?_eq_some h
    exact ⟨hlength, hdigits⟩
  · rintro ⟨hlength, hdigits⟩
    have hsize : Utf8.size digits = 6 := by
      rw [Utf8.size_of_ascii, hlength]
      intro c hc
      obtain ⟨n, hn⟩ := Option.isSome_iff_exists.1 (hdigits c hc)
      exact (Text.lt_of_hexDigit?_eq_some hn).1
    apply if_pos
    rw [hsize, Bool.and_eq_true, List.all_eq_true]
    exact ⟨rfl, hdigits⟩

section parse

variable {t word : Text} {words : List Text} {red green blue : UInt8}

theorem parse_eq_iff {result : Except ParseError Color} :
    parse t = result ↔ (read t).run = some result := by
  rw [← Option.some_inj, parse, Option.some_get]

theorem parse_of_isHex (ht : Text.HasWords t (word :: words)) (h : IsHex word red green blue) :
    parse t = (rgb red green blue).withNames words := by
  obtain ⟨r₁, r₂, g₁, g₂, b₁, b₂, rfl, hred, hgreen, hblue⟩ := h
  rw [isChannel_iff] at hred hgreen hblue
  rw [Text.hasWords_iff] at ht
  have hdigits : digits? ((Text.words t).headD []) = some [r₁, r₂, g₁, g₂, b₁, b₂] := by
    rw [ht, List.headD_cons, digits?_cons_eq_some_iff]
    simp [hred, hgreen, hblue]
  obtain ⟨_, _, _, _, _, _, red', green', blue', heq, hred', hgreen', hblue', hrun⟩ :=
    run_read_of_digits? hdigits
  cases heq
  cases hred.2.2.symm.trans hred'
  cases hgreen.2.2.symm.trans hgreen'
  cases hblue.2.2.symm.trans hblue'
  rw [parse_eq_iff, hrun, ht, List.tail_cons]

theorem exists_isHex_of_digits?_eq_some {digits : Text} (h : digits? word = some digits) :
    ∃ red green blue, IsHex word red green blue := by
  obtain ⟨rfl, hdigits, hlength⟩ := exists_of_digits?_eq_some h
  match digits, hlength with
  | [r₁, r₂, g₁, g₂, b₁, b₂], _ =>
    have hchannel : ∀ high low, high ∈ [r₁, r₂, g₁, g₂, b₁, b₂] → low ∈ [r₁, r₂, g₁, g₂, b₁, b₂] →
        ∃ channel, IsChannel high low channel := by
      intro high low hhigh hlow
      obtain ⟨m, hm⟩ := Option.isSome_iff_exists.1 (hdigits high hhigh)
      obtain ⟨n, hn⟩ := Option.isSome_iff_exists.1 (hdigits low hlow)
      exact ⟨_, isChannel_iff.2 ⟨hdigits high hhigh, hdigits low hlow, Text.hexByte?_pair hm hn⟩⟩
    obtain ⟨red, hred⟩ := hchannel r₁ r₂ (by simp) (by simp)
    obtain ⟨green, hgreen⟩ := hchannel g₁ g₂ (by simp) (by simp)
    obtain ⟨blue, hblue⟩ := hchannel b₁ b₂ (by simp) (by simp)
    exact ⟨red, green, blue, r₁, r₂, g₁, g₂, b₁, b₂, rfl, hred, hgreen, hblue⟩

theorem parse_of_digits?_eq_none (h : digits? ((Text.words t).headD []) = none) :
    parse t = .error (.invalidHex ((Text.words t).headD [])) :=
  parse_eq_iff.2 (run_read_of_digits?_eq_none h)

theorem parse_of_hasWords_nil (ht : Text.HasWords t []) : parse t = .error (.invalidHex []) := by
  rw [Text.hasWords_iff] at ht
  have h := @parse_of_digits?_eq_none t
  rw [ht] at h
  exact h rfl

theorem parse_of_not_isHex (ht : Text.HasWords t (word :: words))
    (hword : ∀ red green blue, ¬ IsHex word red green blue) :
    parse t = .error (.invalidHex word) := by
  rw [Text.hasWords_iff] at ht
  have h := @parse_of_digits?_eq_none t
  rw [ht] at h
  apply h
  rw [Option.eq_none_iff_forall_ne_some]
  intro digits hdigits
  obtain ⟨red, green, blue, hhex⟩ := exists_isHex_of_digits?_eq_some hdigits
  exact hword red green blue hhex

end parse

section withNames

variable (color : Color)

theorem withNames_map (names : List Attribute) (words : List Text) :
    color.withNames (names.map (·.name.toList) ++ words) =
      (names.foldl withAttribute color).withNames words := by
  induction names generalizing color with
  | nil => rfl
  | cons a names ih =>
    rw [List.map_cons, List.cons_append, withNames, Attribute.ofName?_eq_some_iff.2 rfl]
    exact ih (color.withAttribute a)

theorem withNames_names (names : List Attribute) :
    color.withNames (names.map (·.name.toList)) = .ok (names.foldl withAttribute color) := by
  have h := withNames_map color names []
  rw [List.append_nil] at h
  rw [h, withNames]

theorem exists_names (words : List Text) :
    ∃ names : List Attribute, words = names.map (·.name.toList) ∨
      ∃ word rest, words = names.map (·.name.toList) ++ word :: rest ∧
        ∀ a : Attribute, a.name.toList ≠ word := by
  induction words with
  | nil => exact ⟨[], .inl rfl⟩
  | cons word words ih =>
    cases h : Attribute.ofName? word with
    | none => exact ⟨[], .inr ⟨word, words, rfl, Attribute.ofName?_eq_none_iff.1 h⟩⟩
    | some a =>
      obtain rfl := Attribute.ofName?_eq_some_iff.1 h
      obtain ⟨names, rfl | ⟨word, rest, rfl, hword⟩⟩ := ih
      · exact ⟨a :: names, .inl rfl⟩
      · exact ⟨a :: names, .inr ⟨word, rest, rfl, hword⟩⟩

theorem withNames_unknown {names : List Attribute} {word : Text} {rest : List Text}
    (hword : ∀ a : Attribute, a.name.toList ≠ word) :
    color.withNames (names.map (·.name.toList) ++ word :: rest) =
      .error (.unknownAttribute word) := by
  rw [withNames_map, withNames, Attribute.ofName?_eq_none_iff.2 hword]

theorem contains_foldl_withAttribute (names : List Attribute) (a : Attribute) :
    (names.foldl withAttribute color).attributes.contains a = true ↔
      a ∈ names ∨ color.attributes.contains a = true := by
  induction names generalizing color with
  | nil => simp
  | cons name names ih =>
    rw [List.foldl_cons, ih, withAttribute, Attributes.contains_insert, List.mem_cons, Bool.or_eq_true,
      decide_eq_true_eq, or_left_comm, ← or_assoc, @eq_comm _ name a]

theorem channels_foldl_withAttribute (names : List Attribute) :
    (names.foldl withAttribute color).red = color.red ∧
      (names.foldl withAttribute color).green = color.green ∧
      (names.foldl withAttribute color).blue = color.blue := by
  induction names generalizing color with
  | nil => exact ⟨rfl, rfl, rfl⟩
  | cons name names ih => exact ih (color.withAttribute name)

theorem eq_of_channels_eq {a b : Color} (hred : a.red = b.red) (hgreen : a.green = b.green)
    (hblue : a.blue = b.blue) (hattributes : a.attributes = b.attributes) : a = b := by
  cases a
  cases b
  simp_all

theorem withNames_eq_ok_iff {names : List Attribute} {result : Color} {red green blue : UInt8} :
    (rgb red green blue).withNames (names.map (·.name.toList)) = .ok result ↔
      result.red = red ∧ result.green = green ∧ result.blue = blue ∧
        ∀ a, result.attributes.contains a = true ↔ a ∈ names := by
  have hcontains := contains_foldl_withAttribute (rgb red green blue) names
  simp only [rgb, Attributes.contains_none, Bool.false_eq_true, or_false] at hcontains
  obtain ⟨hred, hgreen, hblue⟩ := channels_foldl_withAttribute (rgb red green blue) names
  rw [withNames_names, Except.ok.injEq]
  constructor
  · rintro rfl
    exact ⟨hred, hgreen, hblue, hcontains⟩
  · rintro ⟨rfl, rfl, rfl, hresult⟩
    have hattributes := Attributes.eq_of_contains_iff fun a => (hcontains a).trans (hresult a).symm
    exact eq_of_channels_eq hred hgreen hblue hattributes

end withNames

/--
What comes of reading a text: a color if its first word is `#rrggbb` and all others are names of
attributes. If the first word is another one or missing, this is what is wrong, whatever follows, and
otherwise it is the first word that is no name.
-/
inductive ComesOf (t : Text) : Except ParseError Color → Prop where
  | color {hex : Text} {names : List Attribute} {color : Color}
    (ht : Text.HasWords t (hex :: names.map (·.name.toList)))
    (hhex : IsHex hex color.red color.green color.blue)
    (hnames : ∀ a, color.attributes.contains a = true ↔ a ∈ names) : ComesOf t (.ok color)
  | missing (ht : Text.HasWords t []) : ComesOf t (.error (.invalidHex []))
  | invalid {word : Text} {rest : List Text} (ht : Text.HasWords t (word :: rest))
    (hword : ∀ red green blue, ¬ IsHex word red green blue) :
    ComesOf t (.error (.invalidHex word))
  | unknown {hex : Text} {names : List Attribute} {word : Text} {rest : List Text}
    {red green blue : UInt8}
    (ht : Text.HasWords t (hex :: (names.map (·.name.toList) ++ word :: rest)))
    (hhex : IsHex hex red green blue) (hword : ∀ a : Attribute, a.name.toList ≠ word) :
    ComesOf t (.error (.unknownAttribute word))

theorem comesOf_parse (t : Text) : ComesOf t (parse t) := by
  obtain ⟨words, ht⟩ : ∃ words, Text.HasWords t words := ⟨_, Text.hasWords_iff.2 rfl⟩
  cases words with
  | nil => exact parse_of_hasWords_nil ht ▸ .missing ht
  | cons word words =>
    by_cases hhex : ∃ red green blue, IsHex word red green blue
    · obtain ⟨red, green, blue, hhex⟩ := hhex
      rw [parse_of_isHex ht hhex]
      obtain ⟨names, rfl | ⟨unknown, rest, rfl, hunknown⟩⟩ := exists_names words
      · have hcolor := withNames_names (rgb red green blue) names
        obtain ⟨hred, hgreen, hblue, hnames⟩ := withNames_eq_ok_iff.1 hcolor
        refine hcolor ▸ .color ht ?_ hnames
        rwa [hred, hgreen, hblue]
      · exact withNames_unknown _ hunknown ▸ .unknown ht hhex hunknown
    · simp only [not_exists] at hhex
      exact parse_of_not_isHex ht hhex ▸ .invalid ht hhex

theorem ComesOf.parse_eq {t : Text} {result : Except ParseError Color} (h : ComesOf t result) :
    parse t = result := by
  cases h with
  | color ht hhex hnames =>
    rw [parse_of_isHex ht hhex, withNames_eq_ok_iff]
    exact ⟨rfl, rfl, rfl, hnames⟩
  | missing ht => exact parse_of_hasWords_nil ht
  | invalid ht hword => exact parse_of_not_isHex ht hword
  | unknown ht hhex hword => rw [parse_of_isHex ht hhex, withNames_unknown _ hword]

theorem parse_eq_of_mem_iff {t t' hex : Text} {names names' : List Attribute}
    (ht : Text.HasWords t (hex :: names.map (·.name.toList)))
    (ht' : Text.HasWords t' (hex :: names'.map (·.name.toList)))
    (hnames : ∀ a, a ∈ names ↔ a ∈ names') : parse t = parse t' := by
  by_cases hhex : ∃ red green blue, IsHex hex red green blue
  · obtain ⟨red, green, blue, hhex⟩ := hhex
    have hcolor := withNames_names (rgb red green blue) names
    rw [parse_of_isHex ht hhex, parse_of_isHex ht' hhex, hcolor, eq_comm, withNames_eq_ok_iff]
    simpa only [hnames] using withNames_eq_ok_iff.1 hcolor
  · simp only [not_exists] at hhex
    rw [parse_of_not_isHex ht hhex, parse_of_not_isHex ht' hhex]

theorem parse_eq_iff_comesOf (t : Text) :
    (read t).run = some (parse t) ∧
    (∀ result, parse t = result ↔ ComesOf t result) ∧
    ∀ t' hex (names names' : List Attribute), (∀ a, a ∈ names ↔ a ∈ names') →
      Text.HasWords t (hex :: names.map (·.name.toList)) →
      Text.HasWords t' (hex :: names'.map (·.name.toList)) → parse t = parse t' := by
  refine ⟨parse_eq_iff.1 rfl, ?_, ?_⟩
  · intro result
    constructor
    · rintro rfl
      exact comesOf_parse t
    · exact ComesOf.parse_eq
  · intro t' hex names names' hnames ht ht'
    exact parse_eq_of_mem_iff ht ht' hnames

theorem parse_eq_iff_comesOf_wideSpaces :
    (∀ a : Attribute, a ∈ [Attribute.bold, .dim, .bold] ↔ a ∈ [Attribute.dim, .bold]) ∧
    Text.HasWords "\u3000#dC322f\u00a0bold\tdim bold".toList
      ("#dC322f".toList :: [Attribute.bold, .dim, .bold].map (·.name.toList)) ∧
    Text.HasWords "#dC322f dim bold".toList
      ("#dC322f".toList :: [Attribute.dim, .bold].map (·.name.toList)) ∧
    parse "\u3000#dC322f\u00a0bold\tdim bold".toList = parse "#dC322f dim bold".toList := by
  have hnames : ∀ a : Attribute, a ∈ [Attribute.bold, .dim, .bold] ↔ a ∈ [Attribute.dim, .bold] := by
    intro a
    cases a <;> decide
  have ht := Text.hasWords_iff.2
    (show Text.words "\u3000#dC322f\u00a0bold\tdim bold".toList = _ from rfl)
  have ht' := Text.hasWords_iff.2 (show Text.words "#dC322f dim bold".toList = _ from rfl)
  exact ⟨hnames, ht, ht', (parse_eq_iff_comesOf _).2.2 _ _ _ _ hnames ht ht'⟩

end Color

end Preflight
