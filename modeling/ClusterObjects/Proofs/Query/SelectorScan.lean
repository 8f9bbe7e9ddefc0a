import ClusterObjects.Query.FieldSelector
import Mathlib.Data.List.DropRight

/-! # Scanning field selectors

Three scanners read a selector: one cuts it into terms, one looks for the operator of a term
and one takes the escapes out of a value. All of them pass over an escaped character together
with its backslash, so they agree on what an escape covers, and a mark that stands only escaped
in a text is found by none of them there.
-/

namespace ClusterObjects

/-! ## Trimmed texts -/

namespace Text

/-- What is trimmed off the start of a text is white space. -/
theorem exists_trim_append (text : List Char) :
    ∃ before after, text = before ++ (trim text ++ after) ∧ ∀ c ∈ before, isBlank c = true := by
  obtain ⟨after, hafter⟩ := List.rdropWhile_prefix isBlank (l := trimStart text)
  refine ⟨text.takeWhile isBlank, after, ?_, fun c hc => List.mem_takeWhile_imp hc⟩
  change text = _ ++ (List.rdropWhile isBlank (trimStart text) ++ after)
  rw [hafter]
  exact List.takeWhile_append_dropWhile.symm

/-- Nothing is left to trim off a trimmed text. -/
theorem trim_trim (text : List Char) : trim (trim text) = trim text := by
  apply trim_eq_self
  · intro c hc
    obtain ⟨after, hafter⟩ := List.rdropWhile_prefix isBlank (l := trimStart text)
    change c ∈ (List.rdropWhile isBlank (trimStart text)).head? at hc
    have hstart : (trimStart text).head? = some c := by
      rw [← hafter, List.head?_append, hc]
      rfl
    have hfirst := List.head?_dropWhile_not isBlank text
    change (trimStart text).head? = some c at hstart
    unfold trimStart at hstart
    rw [hstart] at hfirst
    exact hfirst
  · intro c hc
    change c ∈ (List.rdropWhile isBlank (trimStart text)).getLast? at hc
    obtain ⟨hne, rfl⟩ := List.mem_getLast?_eq_getLast hc
    simpa using List.rdropWhile_last_not isBlank (trimStart text) hne

end Text

namespace FieldSelector

/-! ## What an escape covers -/

/-- A backslash is always the last character or in front of one. -/
theorem ne_backslash {c : Char} {rest : List Char} (hlone : c = '\\' → rest = [] → False)
    (hpair : ∀ d more, c = '\\' → rest = d :: more → False) : c ≠ '\\' := by
  intro hc
  cases rest with
  | nil => exact hlone hc rfl
  | cons d more => exact hpair d more hc rfl

/-- A text is read from the left, an escaped character together with its backslash. -/
@[elab_as_elim]
theorem escape_induction {motive : List Char → Prop} (nil : motive []) (lone : motive ['\\'])
    (pair : ∀ c rest, motive rest → motive ('\\' :: c :: rest))
    (plain : ∀ c rest, c ≠ '\\' → motive rest → motive (c :: rest)) (text : List Char) :
    motive text := by
  induction text using unescape?.induct with
  | case1 => exact nil
  | case2 => exact lone
  | case3 c rest ih => exact pair c rest ih
  | case4 c rest hlone hpair ih => exact plain c rest (ne_backslash hlone hpair) ih

theorem unescape?_cons {c : Char} (h : c ≠ '\\') (rest : List Char) :
    unescape? (c :: rest) = (unescape? rest).map (c :: ·) := by
  rw [unescape?]
  · intro hback
    exact absurd hback h
  · rintro d more hback
    exact absurd hback h

/-- Escapes that are closed in front of a text leave the rest of it alone. -/
theorem unescape?_append {front value : List Char} (h : unescape? front = some value)
    (back : List Char) : unescape? (front ++ back) = (unescape? back).map (value ++ ·) := by
  induction front using escape_induction generalizing value with
  | nil =>
    obtain rfl := Option.some.inj h
    simp
  | lone => contradiction
  | pair c rest ih =>
    obtain ⟨found, hfound, rfl⟩ := Option.map_eq_some_iff.mp h
    rw [List.cons_append, List.cons_append, unescape?, ih hfound, Option.map_map]
    rfl
  | plain c rest hc ih =>
    rw [unescape?_cons hc] at h
    obtain ⟨found, hfound, rfl⟩ := Option.map_eq_some_iff.mp h
    rw [List.cons_append, unescape?_cons hc, ih hfound, Option.map_map]
    rfl

/-- Every backslash of the text escapes a character, and a mark stands there only escaped. -/
inductive Avoids (mark : Char) : List Char → Prop
  | nil : Avoids mark []
  | pair {c : Char} {rest : List Char} : Avoids mark rest → Avoids mark ('\\' :: c :: rest)
  | plain {c : Char} {rest : List Char} : c ≠ '\\' → c ≠ mark → Avoids mark rest →
      Avoids mark (c :: rest)

namespace Avoids

variable {mark : Char} {front back text : List Char}

theorem append (hfront : Avoids mark front) (hback : Avoids mark back) :
    Avoids mark (front ++ back) := by
  induction hfront with
  | nil => exact hback
  | pair _ ih => exact ih.pair
  | plain hc hmark _ ih => exact ih.plain hc hmark

theorem of_forall (h : ∀ c ∈ text, c ≠ '\\' ∧ c ≠ mark) : Avoids mark text := by
  induction text with
  | nil => exact .nil
  | cons c rest ih =>
    obtain ⟨⟨hc, hmark⟩, hrest⟩ := List.forall_mem_cons.mp h
    exact (ih hrest).plain hc hmark

theorem exists_unescape? (h : Avoids mark text) : ∃ value, unescape? text = some value := by
  induction h with
  | nil => exact ⟨[], rfl⟩
  | @pair c rest _ ih =>
    obtain ⟨value, hvalue⟩ := ih
    exact ⟨c :: value, by rw [unescape?, hvalue]; rfl⟩
  | @plain c rest hc _ _ ih =>
    obtain ⟨value, hvalue⟩ := ih
    exact ⟨c :: value, by rw [unescape?_cons hc, hvalue]; rfl⟩

theorem pair_iff {c : Char} : Avoids mark ('\\' :: c :: text) ↔ Avoids mark text := by
  refine ⟨fun h => ?_, .pair⟩
  cases h with
  | pair htext => exact htext
  | plain hc => exact absurd rfl hc

theorem plain_iff {c : Char} (hc : c ≠ '\\') :
    Avoids mark (c :: text) ↔ c ≠ mark ∧ Avoids mark text := by
  refine ⟨fun h => ?_, fun h => h.2.plain hc h.1⟩
  cases h with
  | pair => exact absurd rfl hc
  | plain _ hmark htext => exact ⟨hmark, htext⟩

/-- White space in front of a text is part of no escape. -/
theorem of_blank_append (hblank : ∀ c ∈ front, Text.isBlank c = true)
    (h : Avoids mark (front ++ text)) : Avoids mark text := by
  induction front with
  | nil => exact h
  | cons c rest ih =>
    obtain ⟨hc, hrest⟩ := List.forall_mem_cons.mp hblank
    have hback : c ≠ '\\' := by
      rintro rfl
      contradiction
    exact ih hrest ((plain_iff hback).mp h).2

end Avoids

/-- The last backslash of the text escapes nothing; the mark stands only escaped. -/
def Opens (mark : Char) (text : List Char) : Prop :=
  ∃ front, Avoids mark front ∧ text = front ++ ['\\']

theorem Opens.unescape?_eq_none {mark : Char} {text : List Char} (h : Opens mark text) :
    unescape? text = none := by
  obtain ⟨front, hfront, rfl⟩ := h
  obtain ⟨value, hvalue⟩ := hfront.exists_unescape?
  rw [unescape?_append hvalue]
  rfl

/-- A text cut off anywhere may be left with an open escape. -/
theorem Avoids.of_append {mark : Char} {front back : List Char}
    (h : Avoids mark (front ++ back)) : Avoids mark front ∨ Opens mark front := by
  induction front using escape_induction with
  | nil => exact Or.inl .nil
  | lone => exact Or.inr ⟨[], .nil, rfl⟩
  | pair c rest ih =>
    rcases ih (pair_iff.mp h) with hclosed | ⟨more, hmore, rfl⟩
    · exact Or.inl hclosed.pair
    · exact Or.inr ⟨'\\' :: c :: more, hmore.pair, rfl⟩
  | plain c rest hc ih =>
    obtain ⟨hmark, hrest⟩ := (plain_iff hc).mp h
    rcases ih hrest with hclosed | ⟨more, hmore, rfl⟩
    · exact Or.inl (hclosed.plain hc hmark)
    · exact Or.inr ⟨c :: more, hmore.plain hc hmark, rfl⟩

theorem avoids_of_unescape? {mark : Char} {text value : List Char}
    (h : Avoids mark text ∨ Opens mark text) (hvalue : unescape? text = some value) :
    Avoids mark text := by
  rcases h with hclosed | hopens
  · exact hclosed
  · rw [hopens.unescape?_eq_none] at hvalue
    contradiction

/-- Escaped values avoid what is special within values. -/
theorem avoids_escape {mark : Char} (hmark : isSpecial mark = true) (value : List Char) :
    Avoids mark (escape value) := by
  induction value with
  | nil => exact .nil
  | cons c rest ih =>
    unfold escape
    split
    next => exact ih.pair
    next hc =>
      refine ih.plain ?_ ?_
      · rintro rfl
        exact hc rfl
      · rintro rfl
        exact hc hmark

/-! ## Terms -/

theorem terms_plain {c : Char} (hc : c ≠ '\\') (hcomma : c ≠ ',') (rest : List Char) :
    terms (c :: rest) = onFirst [c] (terms rest) := by
  rw [terms]
  · rw [if_neg hcomma]
  · intro hback
    exact absurd hback hc
  · rintro d more hback
    exact absurd hback hc

theorem terms_comma (rest : List Char) : terms (',' :: rest) = [] :: terms rest := by
  simp [terms]

theorem onFirst_onFirst (first second : List Char) {more : List (List Char)} (h : more ≠ []) :
    onFirst first (onFirst second more) = onFirst (first ++ second) more := by
  cases more with
  | nil => exact absurd rfl h
  | cons term more => simp [onFirst]

theorem mem_onFirst {front term : List Char} {more : List (List Char)} (hne : more ≠ [])
    (h : term ∈ onFirst front more) : (∃ first ∈ more, term = front ++ first) ∨ term ∈ more := by
  cases more with
  | nil => exact absurd rfl hne
  | cons first rest =>
    rcases List.mem_cons.mp h with rfl | hrest
    · exact Or.inl ⟨first, List.mem_cons_self, rfl⟩
    · exact Or.inr (List.mem_cons_of_mem _ hrest)

/-- A text without a comma of its own goes into one term with what follows. -/
theorem terms_append {front : List Char} (h : Avoids ',' front) (back : List Char) :
    terms (front ++ back) = onFirst front (terms back) := by
  induction h with
  | nil =>
    cases hback : terms back with
    | nil => exact absurd hback (terms_ne_nil back)
    | cons term more => rw [List.nil_append, hback]; rfl
  | @pair c rest _ ih =>
    rw [List.cons_append, List.cons_append, terms, ih, onFirst_onFirst _ _ (terms_ne_nil back)]
    rfl
  | @plain c rest hc hcomma _ ih =>
    rw [List.cons_append, terms_plain hc hcomma, ih, onFirst_onFirst _ _ (terms_ne_nil back)]
    rfl

/-- Terms between commas are read as these terms. -/
theorem terms_join {written : List (List Char)} (hne : written ≠ [])
    (h : ∀ term ∈ written, Avoids ',' term) : terms (Text.join [','] written) = written := by
  induction written with
  | nil => exact absurd rfl hne
  | cons term more ih =>
    obtain ⟨hterm, hmore⟩ := List.forall_mem_cons.mp h
    cases more with
    | nil =>
      have hend := terms_append hterm []
      rw [List.append_nil] at hend
      exact hend.trans (by simp [terms, onFirst])
    | cons next more =>
      change terms (term ++ [','] ++ Text.join [','] (next :: more)) = _
      rw [List.append_assoc, terms_append hterm, List.singleton_append, terms_comma,
        ih (List.cons_ne_nil _ _) hmore]
      simp [onFirst]

/-- A term has no comma of its own, unless its last escape is open. -/
theorem avoids_of_mem_terms {text term value : List Char} (hterm : term ∈ terms text)
    (hvalue : unescape? term = some value) : Avoids ',' term := by
  induction text using escape_induction generalizing term value with
  | nil =>
    obtain rfl := List.mem_singleton.mp hterm
    exact .nil
  | lone =>
    obtain rfl := List.mem_singleton.mp hterm
    contradiction
  | pair c rest ih =>
    rcases mem_onFirst (terms_ne_nil rest) hterm with ⟨first, hfirst, rfl⟩ | hmore
    · obtain ⟨found, hfound, _⟩ := Option.map_eq_some_iff.mp hvalue
      exact (ih hfirst hfound).pair
    · exact ih hmore hvalue
  | plain c rest hc ih =>
    by_cases hcomma : c = ','
    · subst hcomma
      rcases List.mem_cons.mp (terms_comma rest ▸ hterm) with rfl | hmore
      · exact .nil
      · exact ih hmore hvalue
    · rw [terms_plain hc hcomma] at hterm
      rcases mem_onFirst (terms_ne_nil rest) hterm with ⟨first, hfirst, rfl⟩ | hmore
      · rw [List.singleton_append, unescape?_cons hc] at hvalue
        obtain ⟨found, hfound, _⟩ := Option.map_eq_some_iff.mp hvalue
        exact (ih hfirst hfound).plain hc hcomma
      · exact ih hmore hvalue

/-! ## Operators -/

/-- How an operator is spelled. -/
inductive Sign where
  | single
  | double
  | unequal

namespace Sign

def text : Sign → List Char
  | single => ['=']
  | double => ['=', '=']
  | unequal => ['!', '=']

def comparison : Sign → Comparison
  | single | double => .equals
  | unequal => .notEquals

end Sign

/-- The text ends in an exclamation mark that is not escaped. -/
def endsBare (text : List Char) : Bool :=
  text.getLast? == some '!' && (unescape? text.dropLast).isSome

theorem endsBare_iff {text : List Char} :
    endsBare text = true ↔
      ∃ front value, unescape? front = some value ∧ text = front ++ ['!'] := by
  rw [endsBare, Bool.and_eq_true, beq_iff_eq, Option.isSome_iff_exists]
  constructor
  · rintro ⟨hlast, value, hvalue⟩
    exact ⟨text.dropLast, value, hvalue, (List.dropLast_append_getLast? '!' hlast).symm⟩
  · rintro ⟨front, value, hvalue, rfl⟩
    exact ⟨List.getLast?_concat, value, by rwa [List.dropLast_concat]⟩

/-- A text that does not end bare has no such end, whatever stands in front of it. -/
theorem endsBare_of_append {front back value : List Char} (hfront : unescape? front = some value)
    (h : endsBare (front ++ back) = false) : endsBare back = false := by
  rw [← Bool.not_eq_true] at h ⊢
  intro hback
  obtain ⟨more, found, hfound, rfl⟩ := endsBare_iff.mp hback
  refine h (endsBare_iff.mpr ⟨front ++ more, value ++ found, ?_, (List.append_assoc ..).symm⟩)
  rw [unescape?_append hfront, hfound]
  rfl

theorem Avoids.head?_ne {mark : Char} (hmark : mark ≠ '\\') {text : List Char}
    (h : Avoids mark text) : text.head? ≠ some mark := by
  cases h with
  | nil => exact (Option.some_ne_none mark).symm
  | pair => exact fun heq => hmark (Option.some.inj heq).symm
  | plain _ hc => exact fun heq => hc (Option.some.inj heq)

/-- The cut of a text with another text put in front of it. -/
def cutBehind (front text : List Char) : Option (List Char × Comparison × List Char) :=
  (cutAtOperator text).map fun cut => (front ++ cut.1, cut.2)

theorem cutBehind_append {text back second : List Char}
    (h : cutAtOperator text = cutBehind second back) (first : List Char) :
    cutBehind first text = cutBehind (first ++ second) back := by
  rw [cutBehind, h, cutBehind, Option.map_map, cutBehind]
  simp only [Function.comp_def, List.append_assoc]

theorem cutAtOperator_pair (c : Char) (rest : List Char) :
    cutAtOperator ('\\' :: c :: rest) = cutBehind ['\\', c] rest := rfl

theorem cutAtOperator_plain {c : Char} (hc : c ≠ '\\') (hequals : c ≠ '=') {rest : List Char}
    (hbang : c = '!' → rest.head? ≠ some '=') :
    cutAtOperator (c :: rest) = cutBehind [c] rest := by
  rw [cutAtOperator]
  · rfl
  · exact fun hback => absurd hback hc
  · exact fun _ _ hback => absurd hback hc
  · rintro more hmark rfl
    exact hbang hmark rfl
  · exact fun _ hmark => absurd hmark hequals
  · exact fun hmark => absurd hmark hequals

/-- The operator is looked for behind a text that has no equals sign of its own, unless the text
ends in a bare exclamation mark and an equals sign follows. -/
theorem cutAtOperator_append {front : List Char} (h : Avoids '=' front) {back : List Char}
    (hback : back.head? = some '=' → endsBare front = false) :
    cutAtOperator (front ++ back) = cutBehind front back := by
  induction h with
  | nil => simp [cutBehind]
  | @pair c rest hrest ih =>
    refine (cutAtOperator_pair c (rest ++ back)).trans (cutBehind_append (ih fun hhead => ?_) _)
    exact @endsBare_of_append ['\\', c] rest [c] rfl (hback hhead)
  | @plain c rest hc hequals hrest ih =>
    have hbang : c = '!' → (rest ++ back).head? ≠ some '=' := by
      rintro rfl hhead
      cases rest with
      | nil => exact absurd (hback hhead) (by decide)
      | cons d more => exact hrest.head?_ne (by decide) hhead
    refine (cutAtOperator_plain hc hequals hbang).trans (cutBehind_append (ih fun hhead => ?_) _)
    exact @endsBare_of_append [c] rest [c] (unescape?_cons hc []) (hback hhead)

theorem cutAtOperator_of_avoids {text : List Char} (h : Avoids '=' text) :
    cutAtOperator text = none := by
  have hend := @cutAtOperator_append text h [] fun hhead =>
    absurd hhead.symm (Option.some_ne_none _)
  rwa [List.append_nil] at hend

/-- In front of an escaped value an operator is read as it is spelled. -/
theorem cutAtOperator_sign (sign : Sign) (value : List Char) :
    cutAtOperator (sign.text ++ escape value) = some ([], sign.comparison, escape value) := by
  cases sign with
  | single =>
    have hhead := (@avoids_escape '=' rfl value).head?_ne (by decide)
    change cutAtOperator ('=' :: escape value) = _
    rw [cutAtOperator]
    · rfl
    · rintro more hmore
      rw [hmore] at hhead
      exact hhead rfl
  | double => rfl
  | unequal => rfl

/-- A term is cut behind a path that has no equals sign of its own. -/
theorem exists_of_cutAtOperator {term path raw : List Char} {comparison : Comparison}
    (h : cutAtOperator term = some (path, comparison, raw)) :
    Avoids '=' path ∧ ∃ sign : Sign, term = path ++ (sign.text ++ raw) := by
  fun_induction cutAtOperator term generalizing path with
  | case1 => contradiction
  | case2 => contradiction
  | case3 c rest ih =>
    obtain ⟨⟨front, found⟩, hcut, heq⟩ := Option.map_eq_some_iff.mp h
    obtain ⟨rfl, rfl⟩ := Prod.mk.inj heq
    obtain ⟨havoids, sign, rfl⟩ := ih hcut
    exact ⟨havoids.pair, sign, rfl⟩
  | case4 rest =>
    obtain ⟨rfl, rfl, rfl⟩ := by simpa using h
    exact ⟨.nil, .unequal, rfl⟩
  | case5 rest =>
    obtain ⟨rfl, rfl, rfl⟩ := by simpa using h
    exact ⟨.nil, .double, rfl⟩
  | case6 rest hdouble =>
    obtain ⟨rfl, rfl, rfl⟩ := by simpa using h
    exact ⟨.nil, .single, rfl⟩
  | case7 c rest hlone hpair hunequal hdouble hequals ih =>
    obtain ⟨⟨front, found⟩, hcut, heq⟩ := Option.map_eq_some_iff.mp h
    obtain ⟨rfl, rfl⟩ := Prod.mk.inj heq
    obtain ⟨havoids, sign, rfl⟩ := ih hcut
    exact ⟨havoids.plain (ne_backslash hlone hpair) hequals, sign, rfl⟩

/-! ## Clauses -/

/-- A term writes the clause of the path in front of its operator and the value behind it. -/
theorem requirement_of_cut {term path raw value : List Char} {comparison : Comparison}
    (hcut : cutAtOperator term = some (path, comparison, raw)) (hpath : Text.trim path ≠ [])
    (hvalue : unescape? raw = some value) :
    requirement term =
      .ok ⟨String.ofList (Text.trim path), comparison, String.ofList value⟩ := by
  have hempty : (Text.trim path).isEmpty = false := by simpa using hpath
  simp only [requirement, hcut, hempty, hvalue]
  rfl

theorem exists_of_requirement {term : List Char} {r : Requirement}
    (h : requirement term = .ok r) :
    ∃ path raw value, cutAtOperator term = some (path, r.comparison, raw) ∧
      Text.trim path ≠ [] ∧ unescape? raw = some value ∧
      r = ⟨String.ofList (Text.trim path), r.comparison, String.ofList value⟩ := by
  unfold requirement at h
  split at h
  · contradiction
  next path comparison raw hcut =>
    dsimp only at h
    split at h
    · contradiction
    next hpath =>
      split at h
      · contradiction
      next value hvalue =>
        obtain rfl := Except.ok.inj h
        exact ⟨path, raw, value, hcut, by simpa using hpath, hvalue, rfl⟩

/-- The terms write the clauses one by one. -/
theorem requirementsOf_eq_ok_iff {written : List (List Char)} {rs : List Requirement} :
    requirementsOf written = .ok rs ↔ written.map requirement = rs.map Except.ok := by
  induction written generalizing rs with
  | nil =>
    rw [requirementsOf, Except.ok.injEq, List.map_nil, eq_comm, eq_comm (a := []),
      List.map_eq_nil_iff]
  | cons term rest ih =>
    rw [requirementsOf, List.map_cons]
    cases requirement term with
    | error e => cases rs <;> simp
    | ok first =>
      cases rs with
      | nil => cases requirementsOf rest <;> simp
      | cons r rs =>
        rw [List.map_cons, List.cons.injEq, ← ih]
        cases requirementsOf rest <;> simp

theorem parse_eq_ok_iff {text : String} {selector : FieldSelector} :
    parse text = .ok selector ↔
      ((terms text.toList).filter fun term => !term.isEmpty).map requirement =
        selector.requirements.map Except.ok := by
  rw [← requirementsOf_eq_ok_iff, parse]
  cases requirementsOf ((terms text.toList).filter fun term => !term.isEmpty) with
  | error e => exact ⟨nofun, nofun⟩
  | ok rs =>
    cases selector
    rw [Except.ok.injEq, Except.ok.injEq, FieldSelector.mk.injEq]

end FieldSelector

end ClusterObjects
