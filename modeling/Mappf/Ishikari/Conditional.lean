import Mappf.Ishikari.GlyphMerge

/-! # Conditional requests

`conditional.rs`: a representation that a client already has is not sent again. Header values are ASCII texts, `none`
where a value is not text; times are nanoseconds after the epoch. -/
namespace Mappf.Ishikari.Conditional
open List

structure Validators where
  etag : Option (List Char) := none
  lastModified : Option ℤ := none

structure Headers where
  ifNoneMatch : List (Option (List Char)) := []
  ifModifiedSince : Option (Option (List Char)) := none

/-- The loop of `split_entity_tag_list`, with the text since the last separator. -/
def splitLoop : Bool → List Char → List Char → List (List Char)
  | _, part, [] => [trimmed part]
  | quoted, part, c :: rest =>
    if c = '"' then splitLoop (!quoted) (part ++ [c]) rest
    else if c = ',' ∧ quoted = false then trimmed part :: splitLoop quoted [] rest
    else splitLoop quoted (part ++ [c]) rest

def splitEntityTagList (value : List Char) : List (List Char) := splitLoop false [] value

def stripWeak : List Char → List Char
  | 'W' :: '/' :: etag => etag
  | etag => etag

def ifNoneMatchMatches (etag : Option (List Char)) (value : List Char) : Bool :=
  (splitEntityTagList value).any fun candidate =>
    candidate = ['*'] || etag.any fun etag => stripWeak candidate = stripWeak etag

def truncateToSeconds (time : ℤ) : ℤ := if 0 ≤ time then time - time % 10 ^ 9 else time

variable (parseHttpDate : List Char → Option ℤ)

def notModified (validators : Validators) (request : Headers) : Bool :=
  if request.ifNoneMatch.isEmpty then
    match request.ifModifiedSince, validators.lastModified with
    | some value, some lastModified =>
      (value.bind parseHttpDate).any fun since => truncateToSeconds lastModified ≤ since
    | _, _ => false
  else (request.ifNoneMatch.filterMap id).any (ifNoneMatchMatches validators.etag)

/-! ## Well-formed fields -/

structure EntityTag where
  weak : Bool
  text : List Char
  visible : ∀ c ∈ text, '!' ≤ c ∧ c ≤ '~' ∧ c ≠ '"'

def EntityTag.quoted (tag : EntityTag) : List Char := '"' :: (tag.text ++ ['"'])

def EntityTag.render (tag : EntityTag) : List Char := if tag.weak then 'W' :: '/' :: tag.quoted else tag.quoted

inductive Item
  | empty
  | star
  | tag (tag : EntityTag)

def Item.render : Item → List Char
  | .empty => []
  | .star => ['*']
  | .tag t => t.render

structure Element where
  before : List Char := []
  item : Item
  after : List Char := []
  blank : ∀ c ∈ before ++ after, c = ' ' ∨ c = '\t'

def Element.render (element : Element) : List Char := element.before ++ (element.item.render ++ element.after)

def fieldValue (field : List Element) : List Char := [','].intercalate (field.map Element.render)

/-- Weak comparison of an element with the tag of the representation. -/
def Item.Matches (etag : Option EntityTag) : Item → Prop
  | .empty => False
  | .star => True
  | .tag t => ∃ own, etag = some own ∧ t.text = own.text

/-! ## Splitting -/

/-- No separator stands in `l`, read from outside a quoted text to outside of it. -/
def Whole (l : List Char) : Prop :=
  ∀ part rest, splitLoop false part (l ++ rest) = splitLoop false (part ++ l) rest

theorem Whole.append {l m : List Char} (hl : Whole l) (hm : Whole m) : Whole (l ++ m) := by
  intro part rest
  rw [append_assoc, hl, hm, append_assoc]

theorem whole_plain {l : List Char} (h : ∀ c ∈ l, c ≠ '"' ∧ c ≠ ',') : Whole l := by
  intro part rest
  induction l generalizing part with
  | nil => simp
  | cons c l ih =>
    obtain ⟨⟨hquote, hcomma⟩, hl⟩ := forall_mem_cons.mp h
    rw [cons_append, splitLoop, if_neg hquote, if_neg (fun hc => hcomma hc.1), ih hl, append_assoc]
    rfl

theorem splitLoop_quoted {l : List Char} (h : ∀ c ∈ l, c ≠ '"') (part rest : List Char) :
    splitLoop true part (l ++ '"' :: rest) = splitLoop false (part ++ (l ++ ['"'])) rest := by
  induction l generalizing part with
  | nil => rfl
  | cons c l ih =>
    obtain ⟨hquote, hl⟩ := forall_mem_cons.mp h
    rw [cons_append, splitLoop, if_neg hquote, if_neg (by simp), ih hl, append_assoc]
    rfl

theorem EntityTag.whole (tag : EntityTag) : Whole tag.render := by
  have hquoted : Whole tag.quoted := by
    intro part rest
    rw [quoted, cons_append, splitLoop, if_pos rfl, append_assoc]
    exact (splitLoop_quoted (fun c hc => (tag.visible c hc).2.2) _ rest).trans (by simp)
  unfold render
  split_ifs
  · exact Whole.append (l := ['W', '/']) (whole_plain (by simp)) hquoted
  · exact hquoted

variable (element : Element)

theorem Element.whole : Whole element.render := by
  have hblank : ∀ l : List Char, (∀ c ∈ l, c ∈ element.before ++ element.after) → Whole l := by
    intro l hl
    refine whole_plain fun c hc => ?_
    rcases element.blank c (hl c hc) with rfl | rfl <;> decide
  refine (hblank _ fun c hc => mem_append_left _ hc).append (.append ?_ (hblank _ fun c hc => mem_append_right _ hc))
  cases element.item with
  | empty | star => exact whole_plain (by simp [Item.render])
  | tag tag => exact tag.whole

theorem trimmed_render : trimmed element.render = element.item.render := by
  have hwhite : ∀ c ∈ element.before ++ element.after, isWhitespace c = true := by
    intro c hc
    rcases element.blank c hc with rfl | rfl <;> decide
  have hright : ∀ l, (l ++ element.after).rdropWhile isWhitespace = l.rdropWhile isWhitespace := by
    intro l
    unfold rdropWhile
    rw [reverse_append, dropWhile_append_of_pos (by simpa using fun c hc => hwhite c (mem_append_right _ hc))]
  rw [trimmed, Element.render, dropWhile_append_of_pos fun c hc => hwhite c (mem_append_left _ hc)]
  cases element.item with
  | empty =>
    show (dropWhile isWhitespace element.after).rdropWhile isWhitespace = []
    rw [dropWhile_eq_nil_iff.mpr fun c hc => hwhite c (mem_append_right _ hc)]
    rfl
  | star => exact hright ['*']
  | tag tag =>
    have hlast : ∀ l, (l ++ ['"']).rdropWhile isWhitespace = l ++ ['"'] := fun l =>
      rdropWhile_concat_neg _ _ _ (by decide)
    obtain ⟨weak, text, -⟩ := tag
    cases weak with
    | false => exact (hright _).trans (hlast ('"' :: text))
    | true => exact (hright _).trans (hlast ('W' :: '/' :: '"' :: text))

theorem splitEntityTagList_field (field : List Element) :
    splitEntityTagList (fieldValue (element :: field)) = (element :: field).map (·.item.render) := by
  unfold splitEntityTagList
  induction field generalizing element with
  | nil =>
    have hsplit := element.whole [] []
    simpa [fieldValue, splitLoop, trimmed_render] using hsplit
  | cons next field ih =>
    have hcons : fieldValue (element :: next :: field) = element.render ++ ',' :: fieldValue (next :: field) := by
      simp [fieldValue]
    rw [hcons, element.whole, splitLoop, if_neg (by decide), if_pos (by decide), ih]
    simp [trimmed_render]

/-! ## Matching -/

theorem stripWeak_render (tag : EntityTag) : stripWeak tag.render = tag.quoted := by
  obtain ⟨weak, text, -⟩ := tag
  cases weak with
  | false | true => rfl

theorem candidate_matches (etag : Option EntityTag) (item : Item) :
    (item.render = ['*'] || (etag.map EntityTag.render).any fun etag => stripWeak item.render = stripWeak etag) = true ↔
      item.Matches etag := by
  simp only [Bool.or_eq_true, decide_eq_true_eq, Option.any_map, Option.any_eq_true, stripWeak_render]
  cases item with
  | empty => simp [Item.render, Item.Matches, stripWeak, EntityTag.quoted]
  | star => simp [Item.render, Item.Matches]
  | tag tag =>
    have hstar : tag.render ≠ ['*'] := by
      unfold EntityTag.render EntityTag.quoted
      split_ifs <;> simp
    simp [Item.render, Item.Matches, hstar, stripWeak_render, EntityTag.quoted]

theorem ifNoneMatchMatches_field (etag : Option EntityTag) (field : List Element) :
    ifNoneMatchMatches (etag.map EntityTag.render) (fieldValue field) = true ↔
      ∃ element ∈ field, element.item.Matches etag := by
  unfold ifNoneMatchMatches
  cases field with
  | nil =>
    have hempty := candidate_matches etag .empty
    have hsplit : splitEntityTagList (fieldValue []) = [Item.empty.render] := rfl
    rw [hsplit, any_cons, any_nil, Bool.or_false, hempty]
    simp [Item.Matches]
  | cons element field =>
    rw [splitEntityTagList_field, any_map, any_eq_true]
    exact exists_congr fun element => and_congr_right fun _ => candidate_matches etag element.item

theorem if_none_match_evaluated (etag : Option EntityTag) (lastModified : Option ℤ)
    (since : Option (Option (List Char))) (field : List Element) (fields : List (List Element)) :
    (notModified parseHttpDate ⟨etag.map EntityTag.render, lastModified⟩
        ⟨(field :: fields).map (some <| fieldValue ·), since⟩ = true ↔
      ∃ field' ∈ field :: fields, ∃ element ∈ field', element.item.Matches etag) ∧
    ∀ (tag : Option (List Char)) modified modified' values since', values ≠ [] →
      notModified parseHttpDate ⟨tag, modified⟩ ⟨values, since⟩ =
        notModified parseHttpDate ⟨tag, modified'⟩ ⟨values, since'⟩ := by
  constructor
  · simp [notModified, ifNoneMatchMatches_field]
  · intro tag modified modified' values since' hvalues
    simp [notModified, hvalues]

end Mappf.Ishikari.Conditional
