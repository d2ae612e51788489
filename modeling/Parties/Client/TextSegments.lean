import Mathlib.Data.List.Chain
import Mathlib.Data.List.TakeWhile
import Parties.Types

/-!
# Links in chat text

Mirror of `split_text_with_urls` (`client/src/app_core.cpp`), which cuts the text of a chat
message into plain text and links. A text is the bytes of its `std::string`.
-/

namespace Parties.Client

/-! ### Searching -/

section Search

variable {α : Type*}

/-- `std::string::substr`. -/
def substr (text : List α) (pos count : Nat) : List α := (text.drop pos).take count

theorem take_append_substr (text : List α) {pos stop : Nat} (h : pos ≤ stop) :
    text.take pos ++ substr text pos (stop - pos) = text.take stop := by
  rw [substr, ← List.take_add, Nat.add_sub_cancel' h]

variable [DecidableEq α]

/-- `std::string::find`: the first place from `pos` on where the pattern stands. -/
def find (text pattern : List α) (pos : Nat) : Option Nat :=
  (List.range' pos (text.length + 1 - pos)).find? fun i => pattern.isPrefixOf (text.drop i)

theorem find_spec {text pattern : List α} {pos i : Nat} (h : find text pattern pos = some i) :
    pos ≤ i ∧ pattern <+: text.drop i := by
  have hrange := List.mem_range'_1.mp (List.mem_of_find?_eq_some h)
  have hthere := List.find?_some h
  exact ⟨hrange.1, List.isPrefixOf_iff_prefix.mp hthere⟩

end Search

/-! ### Segments -/

structure TextSegment where
  text : Bytes
  isUrl : Bool := false
deriving DecidableEq, Repr

def http : Bytes := ['h', 't', 't', 'p', ':', '/', '/'].map Char.toUInt8

def https : Bytes := ['h', 't', 't', 'p', 's', ':', '/', '/'].map Char.toUInt8

def isSpace (c : UInt8) : Bool := c ∈ [' ', '\n', '\r', '\t'].map Char.toUInt8

/-- Punctuation that ends a sentence, not a link. -/
def isTrailing (c : UInt8) : Bool := c ∈ ['.', ',', ')', ';'].map Char.toUInt8

/-- `std::min` of two positions, where a missing one is `npos`. -/
def firstOf : Option Nat → Option Nat → Option Nat
  | some a, some b => some (min a b)
  | some a, none => some a
  | none, b => b

/-- The end of the link from `urlStart` on: the next white space or the end of the text. -/
def urlEnd (text : Bytes) (urlStart : Nat) : Nat :=
  urlStart + ((text.drop urlStart).takeWhile fun c => !isSpace c).length

/-- Strip trailing punctuation that is likely not part of the link. -/
def stripTrailing (text : Bytes) (urlStart : Nat) : Nat → Nat
  | 0 => 0
  | last + 1 =>
    if urlStart < last + 1 ∧ isTrailing (text.getD last 0) then stripTrailing text urlStart last
    else last + 1

/-- The loop, for at most `fuel` turns. -/
def splitLoop (text : Bytes) : Nat → Nat → List TextSegment → Option (List TextSegment)
  | 0, _, _ => none
  | fuel + 1, pos, segments =>
    if pos < text.length then
      match firstOf (find text http pos) (find text https pos) with
      | none => some (if pos < text.length then segments ++ [{ text := text.drop pos }] else segments)
      | some urlStart =>
        let segments :=
          if pos < urlStart then segments ++ [{ text := substr text pos (urlStart - pos) }]
          else segments
        let stop := stripTrailing text urlStart (urlEnd text urlStart)
        splitLoop text fuel stop
          (segments ++ [{ text := substr text urlStart (stop - urlStart), isUrl := true }])
    else some segments

def splitTextWithUrls (fuel : Nat) (text : Bytes) : Option (List TextSegment) :=
  (splitLoop text fuel 0 []).map fun segments =>
    if segments.isEmpty then [{ text := text }] else segments

/-! ### A link -/

/-- What starts with a scheme and contains no white space. -/
def IsLink (text : Bytes) : Prop :=
  (http <+: text ∨ https <+: text) ∧ ∀ c ∈ text, isSpace c = false

theorem firstOf_spec {text : Bytes} {pos urlStart : Nat}
    (h : firstOf (find text http pos) (find text https pos) = some urlStart) :
    pos ≤ urlStart ∧ (http <+: text.drop urlStart ∨ https <+: text.drop urlStart) := by
  have hfound : find text http pos = some urlStart ∨ find text https pos = some urlStart := by
    cases hhttp : find text http pos with
    | none =>
        rw [hhttp] at h
        exact .inr h
    | some a =>
        cases hhttps : find text https pos with
        | none =>
            rw [hhttp, hhttps] at h
            exact .inl h
        | some b =>
            rw [hhttp, hhttps] at h
            obtain rfl := Option.some.inj h
            rcases min_choice a b with hmin | hmin
            · exact .inl (congrArg some hmin.symm)
            · exact .inr (congrArg some hmin.symm)
  obtain hhttp | hhttps := hfound
  · exact ⟨(find_spec hhttp).1, .inl (find_spec hhttp).2⟩
  · exact ⟨(find_spec hhttps).1, .inr (find_spec hhttps).2⟩

/-- Stripping stops at a byte that is no punctuation. -/
theorem stripTrailing_bounds {text : Bytes} {urlStart kept stop : Nat} (hkept : kept < stop)
    (hstays : isTrailing (text.getD kept 0) = false) :
    kept < stripTrailing text urlStart stop ∧ stripTrailing text urlStart stop ≤ stop := by
  induction stop with
  | zero => exact absurd hkept (Nat.not_lt_zero kept)
  | succ last ih =>
      rw [stripTrailing]
      split
      next hstrip =>
        have hne : kept ≠ last := by
          rintro rfl
          rw [hstays] at hstrip
          exact Bool.noConfusion hstrip.2
        have hrest := ih (by omega)
        omega
      · exact ⟨hkept, le_rfl⟩

/-- The link from `urlStart` on keeps its scheme. -/
theorem link_at {text scheme : Bytes} {urlStart : Nat} (hscheme : scheme <+: text.drop urlStart)
    (hlast : scheme.getLast? = some '/'.toUInt8) (hplain : ∀ c ∈ scheme, isSpace c = false) :
    let stop := stripTrailing text urlStart (urlEnd text urlStart)
    urlStart < stop ∧ stop ≤ text.length ∧ scheme <+: substr text urlStart (stop - urlStart) ∧
      ∀ c ∈ substr text urlStart (stop - urlStart), isSpace c = false := by
  intro stop
  obtain ⟨rest, hrest⟩ := hscheme
  obtain ⟨front, hfront⟩ := List.getLast?_eq_some_iff.mp hlast
  have hlength : scheme.length = front.length + 1 := by rw [hfront, List.length_append]; rfl
  -- the scheme has no white space in it
  have hrun : (text.drop urlStart).takeWhile (fun c => !isSpace c) =
      scheme ++ rest.takeWhile fun c => !isSpace c := by
    rw [← hrest, List.takeWhile_append_of_pos]
    intro c hc
    rw [hplain c hc]
    rfl
  have hend : urlEnd text urlStart =
      urlStart + scheme.length + (rest.takeWhile fun c => !isSpace c).length := by
    rw [urlEnd, hrun, List.length_append, Nat.add_assoc]
  have hslash : text.getD (urlStart + front.length) 0 = '/'.toUInt8 := by
    rw [List.getD_eq_getElem?_getD, ← List.getElem?_drop, ← hrest, hfront, List.append_assoc,
      List.getElem?_append_right le_rfl, Nat.sub_self]
    rfl
  obtain ⟨hkept, hbound⟩ : urlStart + front.length < stop ∧ stop ≤ urlEnd text urlStart := by
    refine stripTrailing_bounds (by omega) ?_
    rw [hslash]
    decide
  have hinside : urlEnd text urlStart ≤ text.length := by
    have hrestLength := congrArg List.length hrest
    have hwhile := (List.takeWhile_prefix (p := fun c => !isSpace c) (l := rest)).length_le
    rw [List.length_append, List.length_drop] at hrestLength
    omega
  have hpre : substr text urlStart (stop - urlStart) <+:
      (text.drop urlStart).takeWhile fun c => !isSpace c := by
    refine List.prefix_of_prefix_length_le (List.take_prefix _ _) (List.takeWhile_prefix _) ?_
    rw [substr, List.length_take]
    rw [urlEnd] at hbound
    omega
  refine ⟨by omega, hbound.trans hinside, ?_, fun c hc => ?_⟩
  · refine List.prefix_of_prefix_length_le ⟨rest, hrest⟩ (List.take_prefix _ _) ?_
    rw [substr, List.length_take, List.length_drop]
    omega
  · have hwhile := List.mem_takeWhile_imp (hpre.subset hc)
    rwa [Bool.not_eq_true'] at hwhile

theorem plain_of_all {scheme : Bytes} (h : scheme.all (fun c => !isSpace c) = true) :
    ∀ c ∈ scheme, isSpace c = false := by
  simpa using h

/-- The link that a turn of the loop finds. -/
theorem link_found {text : Bytes} {pos urlStart : Nat}
    (h : firstOf (find text http pos) (find text https pos) = some urlStart) :
    let stop := stripTrailing text urlStart (urlEnd text urlStart)
    pos ≤ urlStart ∧ urlStart < stop ∧ stop ≤ text.length ∧
      IsLink (substr text urlStart (stop - urlStart)) := by
  obtain ⟨hpos, hhttp | hhttps⟩ := firstOf_spec h
  · obtain ⟨hlt, hle, hscheme, hplain⟩ := link_at hhttp rfl (plain_of_all rfl)
    exact ⟨hpos, hlt, hle, .inl hscheme, hplain⟩
  · obtain ⟨hlt, hle, hscheme, hplain⟩ := link_at hhttps rfl (plain_of_all rfl)
    exact ⟨hpos, hlt, hle, .inr hscheme, hplain⟩

/-! ### Nothing is lost -/

/-- The segments make up the text, links are links, and no plain text follows plain text. -/
structure Segments (text : Bytes) (segments : List TextSegment) : Prop where
  joined : segments.flatMap TextSegment.text = text
  links : ∀ segment ∈ segments, segment.isUrl = true → IsLink segment.text
  apart : segments.IsChain fun a b => a.isUrl = true ∨ b.isUrl = true

/-- At the head of a turn the segments end in a link. -/
structure Progress (text : Bytes) (pos : Nat) (segments : List TextSegment) : Prop extends
    Segments (text.take pos) segments where
  inside : pos ≤ text.length
  behind : ∀ segment ∈ segments.getLast?, segment.isUrl = true

theorem Segments.append {front text : Bytes} {segments : List TextSegment} {segment : TextSegment}
    (h : Segments front segments) (hjoined : front ++ segment.text = text)
    (hlink : segment.isUrl = true → IsLink segment.text)
    (hapart : ∀ last ∈ segments.getLast?, last.isUrl = true ∨ segment.isUrl = true) :
    Segments text (segments ++ [segment]) where
  joined := by
    rw [List.flatMap_append, h.joined, List.flatMap_singleton]
    exact hjoined
  links s hs := by
    obtain hold | hnew := List.mem_append.mp hs
    · exact h.links s hold
    · obtain rfl := List.mem_singleton.mp hnew
      exact hlink
  apart := by
    refine List.isChain_append.mpr ⟨h.apart, List.isChain_singleton _, fun last hlast next hnext => ?_⟩
    obtain rfl : segment = next := Option.some.inj hnext
    exact hapart last hlast

/-- One turn of the loop: plain text up to the link, if there is any, and the link. -/
theorem Progress.turn {text : Bytes} {pos urlStart : Nat} {segments : List TextSegment}
    (h : Progress text pos segments)
    (hfound : firstOf (find text http pos) (find text https pos) = some urlStart) :
    let stop := stripTrailing text urlStart (urlEnd text urlStart)
    pos < stop ∧ Progress text stop
      ((if pos < urlStart then segments ++ [{ text := substr text pos (urlStart - pos) }]
        else segments) ++ [{ text := substr text urlStart (stop - urlStart), isUrl := true }]) := by
  intro stop
  obtain ⟨hpos, hlt, hle, hlink⟩ := link_found hfound
  have hplain : Segments (text.take urlStart)
      (if pos < urlStart then segments ++ [{ text := substr text pos (urlStart - pos) }]
        else segments) := by
    split
    · refine h.toSegments.append (take_append_substr text hpos) Bool.noConfusion fun last hlast => ?_
      exact .inl (h.behind last hlast)
    · obtain rfl : pos = urlStart := by omega
      exact h.toSegments
  refine ⟨by omega, ?_, hle, fun segment hsegment => ?_⟩
  · exact hplain.append (take_append_substr text hlt.le) (fun _ => hlink) fun _ _ => .inr rfl
  · rw [List.getLast?_concat] at hsegment
    obtain rfl := Option.some.inj hsegment
    rfl

/-- The loop ends, as every turn moves on. -/
theorem splitLoop_segments {text : Bytes} {pos : Nat} {segments : List TextSegment}
    (h : Progress text pos segments) : ∃ result, Segments text result ∧
      ∀ fuel, text.length - pos < fuel → splitLoop text fuel pos segments = some result := by
  induction hleft : text.length - pos using Nat.strong_induction_on generalizing pos segments with
  | _ left ih =>
      by_cases hmore : pos < text.length
      · cases hfound : firstOf (find text http pos) (find text https pos) with
        | none =>
            refine ⟨segments ++ [{ text := text.drop pos }], ?_, fun fuel hfuel => ?_⟩
            · refine h.toSegments.append (List.take_append_drop pos text) Bool.noConfusion ?_
              exact fun last hlast => .inl (h.behind last hlast)
            · obtain ⟨turns, rfl⟩ := Nat.exists_eq_add_of_lt hfuel
              rw [splitLoop, if_pos hmore, hfound]
              exact congrArg some (if_pos hmore)
        | some urlStart =>
            obtain ⟨hon, hnext⟩ := h.turn hfound
            obtain ⟨result, hresult, hturns⟩ := ih _ (by omega) hnext rfl
            refine ⟨result, hresult, fun fuel hfuel => ?_⟩
            obtain ⟨turns, rfl⟩ := Nat.exists_eq_add_of_lt hfuel
            rw [splitLoop, if_pos hmore, hfound]
            exact hturns _ (by omega)
      · refine ⟨segments, ?_, fun fuel hfuel => ?_⟩
        · have hwhole := h.toSegments
          rw [List.take_of_length_le (by omega)] at hwhole
          exact hwhole
        · obtain ⟨turns, rfl⟩ := Nat.exists_eq_add_of_lt hfuel
          rw [splitLoop, if_neg hmore]

/-- The loop takes fewer turns than the text has bytes, and its segments lose nothing. -/
theorem splitTextWithUrls_segments (text : Bytes) : ∃ segments, Segments text segments ∧
    ∀ fuel, text.length < fuel → splitTextWithUrls fuel text = some segments := by
  have hstart : Progress text 0 [] := by
    refine ⟨⟨rfl, ?_, List.isChain_nil⟩, Nat.zero_le _, ?_⟩
    · intro _ h
      cases h
    · intro _ h
      cases h
  obtain ⟨segments, hsegments, hturns⟩ := splitLoop_segments hstart
  refine ⟨if segments.isEmpty then [{ text := text }] else segments, ?_, fun fuel hfuel => ?_⟩
  · split
    · refine ⟨List.append_nil text, fun segment hsegment hlink => ?_, List.isChain_singleton _⟩
      obtain rfl := List.mem_singleton.mp hsegment
      cases hlink
    · exact hsegments
  · rw [splitTextWithUrls, hturns fuel hfuel]
    rfl

-- "(http://b)." keeps its punctuation outside of the link
example : splitTextWithUrls 12 ('('.toUInt8 :: http ++ ['b', ')', '.'].map Char.toUInt8) =
    some [{ text := ['('.toUInt8] }, { text := http ++ ['b'.toUInt8], isUrl := true },
      { text := [')', '.'].map Char.toUInt8 }] := by decide

end Parties.Client
