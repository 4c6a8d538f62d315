import Preflight.Style.Cursor
import Preflight.Text.Quoted
import Preflight.Text.Utf8

/-!
This module contains colors with text attributes: the way they are written in settings, and the
escape sequences that turn them on.
-/

namespace Preflight

inductive Attribute where
  | bold
  | dim
  | underline
  | blink
  | reverse
  deriving DecidableEq, Repr

namespace Attribute

def all : List Attribute := [bold, dim, underline, blink, reverse]

def name : Attribute → String
  | bold => "bold"
  | dim => "dim"
  | underline => "underline"
  | blink => "blink"
  | reverse => "reverse"

def code : Attribute → Nat
  | bold => 1
  | dim => 2
  | underline => 4
  | blink => 5
  | reverse => 7

def ofName? (name : Text) : Option Attribute := all.find? fun a => a.name.toList = name

end Attribute

structure Attributes where
  bold : Bool
  dim : Bool
  underline : Bool
  blink : Bool
  reverse : Bool
  deriving DecidableEq, Repr

namespace Attributes

def none : Attributes := ⟨false, false, false, false, false⟩

def contains (set : Attributes) : Attribute → Bool
  | .bold => set.bold
  | .dim => set.dim
  | .underline => set.underline
  | .blink => set.blink
  | .reverse => set.reverse

def insert (set : Attributes) : Attribute → Attributes
  | .bold => { set with bold := true }
  | .dim => { set with dim := true }
  | .underline => { set with underline := true }
  | .blink => { set with blink := true }
  | .reverse => { set with reverse := true }

def ofList (attributes : List Attribute) : Attributes := attributes.foldl insert none

def union (a b : Attributes) : Attributes :=
  ⟨a.bold || b.bold, a.dim || b.dim, a.underline || b.underline, a.blink || b.blink,
    a.reverse || b.reverse⟩

def toList (set : Attributes) : List Attribute := Attribute.all.filter set.contains

def containsAll (a b : Attributes) : Bool := b.toList.all a.contains

def isEmpty (set : Attributes) : Bool := set.toList.isEmpty

theorem contains_insert (set : Attributes) (a b : Attribute) :
    (set.insert a).contains b = (a = b || set.contains b) := by
  cases a <;> cases b <;> simp [insert, contains]

end Attributes

structure Color where
  red : UInt8
  green : UInt8
  blue : UInt8
  attributes : Attributes
  deriving DecidableEq, Repr

namespace Color

def rgb (red green blue : UInt8) : Color := ⟨red, green, blue, .none⟩

def withAttribute (color : Color) (a : Attribute) : Color :=
  { color with attributes := color.attributes.insert a }

def sequence (color : Color) (target : Nat) : Text :=
  Style.introducer
    ++ color.attributes.toList.flatMap (fun a => Text.decimal a.code ++ [';'])
    ++ Text.decimal target ++ ";2;".toList
    ++ Text.decimal color.red.toNat ++ ';' :: Text.decimal color.green.toNat
    ++ ';' :: Text.decimal color.blue.toNat ++ ['m']

def foreground (color : Color) : Text := color.sequence 38

def background (color : Color) : Text := color.sequence 48

end Color

namespace Style

def reset : Text := introducer ++ "0;0;0m".toList

def resetAttributes : Text := introducer ++ "22;24;25;27m".toList

end Style

namespace Color

def paint (color : Color) (t : Text) : Text := color.foreground ++ t ++ Style.reset

inductive ParseError where
  | invalidHex (word : Text)
  | unknownAttribute (word : Text)
  deriving DecidableEq, Repr

def ParseError.message : ParseError → Text
  | invalidHex word => "color must start with '#rrggbb', got ".toList ++ Text.quote word
  | unknownAttribute word => "unknown text attribute ".toList ++ Text.quote word

def digits? : Text → Option Text
  | '#' :: digits =>
    if Utf8.size digits = 6 && digits.all fun c => (Text.hexDigit? c).isSome then some digits
    else none
  | _ => none

def channelAt (word digits : Text) (place : Nat) : ExceptT ParseError Option UInt8 := do
  -- There is nothing at all, not even an error, if this cuts through a character.
  let pair ← Utf8.slice? place (place + 2) digits
  match Text.hexByte? pair with
  | some channel => return channel
  | none => throw (.invalidHex word)

def withNames (color : Color) : List Text → Except ParseError Color
  | [] => .ok color
  | word :: words =>
    match Attribute.ofName? word with
    | some a => (color.withAttribute a).withNames words
    | none => .error (.unknownAttribute word)

def read (t : Text) : ExceptT ParseError Option Color := do
  let words := Text.words t
  let word := words.headD []
  match digits? word with
  | some digits =>
    let red ← channelAt word digits 0
    let green ← channelAt word digits 2
    let blue ← channelAt word digits 4
    (rgb red green blue).withNames words.tail
  | none => throw (.invalidHex word)

theorem exists_of_digits?_eq_some {word digits : Text} (h : digits? word = some digits) :
    word = '#' :: digits ∧ (∀ c ∈ digits, (Text.hexDigit? c).isSome) ∧ digits.length = 6 := by
  unfold digits? at h
  split at h
  · split at h
    · next hdigits =>
      obtain rfl := Option.some.inj h
      rw [Bool.and_eq_true, decide_eq_true_eq, List.all_eq_true] at hdigits
      refine ⟨rfl, hdigits.2, ?_⟩
      -- It is bytes that have been counted, but a digit has no more than one.
      rw [← Utf8.size_of_ascii, hdigits.1]
      intro c hc
      obtain ⟨n, hn⟩ := Option.isSome_iff_exists.1 (hdigits.2 c hc)
      exact (Text.lt_of_hexDigit?_eq_some hn).1
    · contradiction
  · contradiction

theorem exists_channelAt_eq (word front back : Text) (high low : Char)
    (h : ∀ c ∈ front ++ [high, low] ++ back, (Text.hexDigit? c).isSome) :
    ∃ channel, Text.hexByte? [high, low] = some channel ∧
      channelAt word (front ++ [high, low] ++ back) front.length = pure channel := by
  have hdigit : ∀ c ∈ front ++ [high, low] ++ back, ∃ n, Text.hexDigit? c = some n :=
    fun c hc => Option.isSome_iff_exists.1 (h c hc)
  obtain ⟨m, hm⟩ := hdigit high (by simp)
  obtain ⟨n, hn⟩ := hdigit low (by simp)
  have hbyte := Text.hexByte?_pair hm hn
  refine ⟨_, hbyte, ?_⟩
  have hslice : Utf8.slice? front.length (front.length + 2) (front ++ [high, low] ++ back) =
      some [high, low] := by
    apply Utf8.slice?_of_ascii
    intro c hc
    obtain ⟨n, hn⟩ := hdigit c hc
    exact (Text.lt_of_hexDigit?_eq_some hn).1
  unfold channelAt
  rw [hslice]
  change (match Text.hexByte? [high, low] with
    | some channel => pure channel
    | none => throw (.invalidHex word) : ExceptT ParseError Option UInt8) = _
  rw [hbyte]

theorem exists_channels (word : Text) {r₁ r₂ g₁ g₂ b₁ b₂ : Char}
    (h : ∀ c ∈ [r₁, r₂, g₁, g₂, b₁, b₂], (Text.hexDigit? c).isSome) :
    ∃ red green blue, Text.hexByte? [r₁, r₂] = some red ∧ Text.hexByte? [g₁, g₂] = some green ∧
      Text.hexByte? [b₁, b₂] = some blue ∧
      channelAt word [r₁, r₂, g₁, g₂, b₁, b₂] 0 = pure red ∧
      channelAt word [r₁, r₂, g₁, g₂, b₁, b₂] 2 = pure green ∧
      channelAt word [r₁, r₂, g₁, g₂, b₁, b₂] 4 = pure blue := by
  obtain ⟨red, hred, hred'⟩ := exists_channelAt_eq word [] [g₁, g₂, b₁, b₂] r₁ r₂ h
  obtain ⟨green, hgreen, hgreen'⟩ := exists_channelAt_eq word [r₁, r₂] [b₁, b₂] g₁ g₂ h
  obtain ⟨blue, hblue, hblue'⟩ := exists_channelAt_eq word [r₁, r₂, g₁, g₂] [] b₁ b₂ h
  exact ⟨red, green, blue, hred, hgreen, hblue, hred', hgreen', hblue'⟩

theorem run_read_of_digits? {t digits : Text}
    (h : digits? ((Text.words t).headD []) = some digits) :
    ∃ r₁ r₂ g₁ g₂ b₁ b₂ red green blue, digits = [r₁, r₂, g₁, g₂, b₁, b₂] ∧
      Text.hexByte? [r₁, r₂] = some red ∧ Text.hexByte? [g₁, g₂] = some green ∧
      Text.hexByte? [b₁, b₂] = some blue ∧
      (read t).run = some ((rgb red green blue).withNames (Text.words t).tail) := by
  obtain ⟨_, hdigits, hlength⟩ := exists_of_digits?_eq_some h
  match digits, hlength with
  | [r₁, r₂, g₁, g₂, b₁, b₂], _ =>
    obtain ⟨red, green, blue, hred, hgreen, hblue, hred', hgreen', hblue'⟩ :=
      exists_channels ((Text.words t).headD []) hdigits
    refine ⟨r₁, r₂, g₁, g₂, b₁, b₂, red, green, blue, rfl, hred, hgreen, hblue, ?_⟩
    unfold read
    simp only [h, hred', hgreen', hblue', pure_bind]
    rfl

theorem run_read_of_digits?_eq_none {t : Text}
    (h : digits? ((Text.words t).headD []) = none) :
    (read t).run = some (.error (.invalidHex ((Text.words t).headD []))) := by
  unfold read
  simp only [h]
  rfl

theorem isSome_run_read (t : Text) : (read t).run.isSome := by
  cases h : digits? ((Text.words t).headD []) with
  | none => rw [run_read_of_digits?_eq_none h, Option.isSome_some]
  | some digits =>
    obtain ⟨_, _, _, _, _, _, _, _, _, _, _, _, _, hrun⟩ := run_read_of_digits? h
    rw [hrun, Option.isSome_some]

def parse (t : Text) : Except ParseError Color := (read t).run.get (isSome_run_read t)

end Color

end Preflight
