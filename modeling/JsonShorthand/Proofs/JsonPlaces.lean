import Mathlib.Data.List.Forall2
import JsonShorthand.Proofs.JsonCharacters
import JsonShorthand.Proofs.JsonTokens

namespace JsonShorthand.Json

inductive Place where
  | outside
  | inside
  | escaped
  deriving DecidableEq

def Place.next : Place → Char → Place
  | outside, c => if c = '"' then inside else outside
  | inside, c => if c = '"' then outside else if c = '\\' then escaped else inside
  | escaped, _ => inside

def Place.after (place : Place) (cs : List Char) : Place := cs.foldl next place

/-- Characters with their places, of which the first is given. -/
def placed (place : Place) : List Char → List (Place × Char)
  | [] => []
  | c :: cs => (place, c) :: placed (place.next c) cs

theorem map_snd_placed (place : Place) (cs : List Char) : (placed place cs).map Prod.snd = cs := by
  induction cs generalizing place with
  | nil => rfl
  | cons c cs ih => rw [placed, List.map_cons, ih]

theorem placed_append (place : Place) (cs ds : List Char) :
    placed place (cs ++ ds) = placed place cs ++ placed (place.after cs) ds := by
  induction cs generalizing place with
  | nil => rfl
  | cons c cs ih => rw [List.cons_append, placed, ih]; rfl

theorem Place.after_append (place : Place) (cs ds : List Char) :
    place.after (cs ++ ds) = (place.after cs).after ds := List.foldl_append

/-- Characters within a string. -/
structure Enclosed (cs : List Char) : Prop where
  after_eq : Place.inside.after cs = .inside
  not_mem : ∀ c, (Place.outside, c) ∉ placed .inside cs

namespace Enclosed

theorem append {cs ds : List Char} (hcs : Enclosed cs) (hds : Enclosed ds) :
    Enclosed (cs ++ ds) where
  after_eq := by rw [Place.after_append, hcs.after_eq, hds.after_eq]
  not_mem c hc := by
    rw [placed_append, hcs.after_eq] at hc
    exact (List.mem_append.1 hc).elim (hcs.not_mem c) (hds.not_mem c)

theorem nil : Enclosed [] := ⟨rfl, fun _ => List.not_mem_nil⟩

theorem plain {c : Char} (hquote : c ≠ '"') (hbackslash : c ≠ '\\') : Enclosed [c] where
  after_eq := by simp [Place.after, Place.next, hquote, hbackslash]
  not_mem := by simp [placed]

theorem backslash (c : Char) : Enclosed ['\\', c] where
  after_eq := rfl
  not_mem := by simp [placed, Place.next]

theorem digitChar {n : Nat} (h : n < 16) : Enclosed [Nat.digitChar n] := by
  have hplain : ∀ n < 16, Nat.digitChar n ≠ '"' ∧ Nat.digitChar n ≠ '\\' := by decide
  exact plain (hplain n h).1 (hplain n h).2

theorem escape (c : Char) : Enclosed (escape c) := by
  unfold Json.escape
  split
  case h_8 hquote hbackslash _ _ _ _ _ =>
    split
    · next hcontrol =>
      have hzero : Enclosed ['0'] := plain (by decide) (by decide)
      have hhigh : Enclosed [Nat.digitChar (c.toNat / 16)] := digitChar (by omega)
      have hlow : Enclosed [Nat.digitChar (c.toNat % 16)] := digitChar (by omega)
      exact (backslash 'u').append (hzero.append (hzero.append (hhigh.append hlow)))
    · exact plain hquote hbackslash
  all_goals exact backslash _

theorem flatMap_escape (cs : List Char) : Enclosed (cs.flatMap Json.escape) := by
  induction cs with
  | nil => exact nil
  | cons c cs ih => exact (escape c).append ih

end Enclosed

/-- Characters around which one is outside of strings, and of which none that stands there has a
property. -/
structure Free (p : Char → Prop) (cs : List Char) : Prop where
  after_eq : Place.outside.after cs = .outside
  not_of_mem : ∀ c, (Place.outside, c) ∈ placed .outside cs → ¬ p c

namespace Free

variable {p : Char → Prop} {cs ds : List Char}

theorem nil : Free p [] := ⟨rfl, by simp [placed]⟩

theorem append (hcs : Free p cs) (hds : Free p ds) : Free p (cs ++ ds) where
  after_eq := by rw [Place.after_append, hcs.after_eq, hds.after_eq]
  not_of_mem c hc := by
    rw [placed_append, hcs.after_eq] at hc
    exact (List.mem_append.1 hc).elim (hcs.not_of_mem c) (hds.not_of_mem c)

theorem singleton {c : Char} (hquote : c ≠ '"') (hc : ¬ p c) : Free p [c] where
  after_eq := by simp [Place.after, Place.next, hquote]
  not_of_mem := by simpa [placed] using hc

theorem of_forall (h : ∀ c ∈ cs, c ≠ '"' ∧ ¬ p c) : Free p cs := by
  induction cs with
  | nil => exact nil
  | cons c cs ih =>
    obtain ⟨hc, hcs⟩ := List.forall_mem_cons.1 h
    exact (singleton hc.1 hc.2).append (ih hcs)

theorem string (hquote : ¬ p '"') (s : String) : Free p (string s) := by
  have hbody := Enclosed.flatMap_escape s.toList
  have hstring : Json.string s = '"' :: (s.toList.flatMap escape ++ ['"']) := rfl
  rw [hstring]
  constructor
  · have hopen : Place.outside.after ('"' :: (s.toList.flatMap escape ++ ['"'])) =
        Place.inside.after (s.toList.flatMap escape ++ ['"']) := rfl
    rw [hopen, Place.after_append, hbody.after_eq]
    rfl
  · intro c hc
    have hopen : placed .outside ('"' :: (s.toList.flatMap escape ++ ['"'])) =
        (.outside, '"') :: placed .inside (s.toList.flatMap escape ++ ['"']) := rfl
    rw [hopen, placed_append, hbody.after_eq] at hc
    rcases List.mem_cons.1 hc with heq | hc
    · obtain rfl := (Prod.mk.inj heq).2
      exact hquote
    · rcases List.mem_append.1 hc with hc | hc
      · exact absurd hc (hbody.not_mem c)
      · simp [placed] at hc

theorem scalar (hquote : ¬ p '"') (hp : ∀ c, isScalarChar c → ¬ p c) {v : Value}
    (hv : v.IsScalar) : Free p v.scalar := by
  have hraw {v : Value} (h : v.IsRaw) : Free p v.scalar := of_forall fun c hc => by
    have hchar := Json.isScalarChar_of_mem_scalar h hc
    refine ⟨?_, hp c hchar⟩
    rintro rfl
    simp [isScalarChar] at hchar
  cases v with
  | float x =>
    by_cases hfinite : x.isFinite
    · exact hraw hfinite
    · have hnull : (Value.float x).scalar = Value.null.scalar := by
        simp [Value.scalar, Json.float, hfinite]
      rw [hnull]
      exact hraw trivial
  | string s => exact string hquote s
  | array elements | object fields => exact hv.elim
  | _ => exact hraw trivial

end Free

/-- Deletes the one space after each colon that stands outside of strings, as those after the names
of fields do. -/
def dropNameSpaces : List (Place × Char) → List Char
  | (.outside, ':') :: (.outside, ' ') :: rest => ':' :: dropNameSpaces rest
  | (_, c) :: rest => c :: dropNameSpaces rest
  | [] => []

/-- Deletes the spaces after the names of fields, and all tabs and line ends. -/
def withoutLayout (cs : List Char) : List Char :=
  (dropNameSpaces (placed .outside cs)).filter fun c => c ≠ '\t' && c ≠ '\n'

theorem dropNameSpaces_append {marks : List (Place × Char)}
    (h : ∀ c, (Place.outside, c) ∈ marks → c ≠ ':') (rest : List (Place × Char)) :
    dropNameSpaces (marks ++ rest) = marks.map Prod.snd ++ dropNameSpaces rest := by
  induction marks with
  | nil => rfl
  | cons mark marks ih =>
    obtain ⟨place, c⟩ := mark
    have hrest := ih fun d hd => h d (List.mem_cons_of_mem _ hd)
    rw [List.cons_append, dropNameSpaces, hrest]
    · rfl
    · rintro more - rfl rfl
      exact absurd rfl (h ':' List.mem_cons_self)

/-- The characters `text`, wherever they stand outside of strings, are `short` without layout. -/
def Shortens (text short : List Char) : Prop :=
  ∀ rest, withoutLayout (text ++ rest) = short ++ withoutLayout rest

namespace Shortens

variable {text more short others : List Char}

theorem nil : Shortens [] [] := fun _ => rfl

theorem append (htext : Shortens text short) (hmore : Shortens more others) :
    Shortens (text ++ more) (short ++ others) := by
  intro rest
  rw [List.append_assoc, htext, hmore, List.append_assoc]

theorem unique (htext : Shortens text short) (hother : Shortens text others) : short = others :=
  List.append_cancel_right ((htext []).symm.trans (hother []))

theorem filter (h : Free (· = ':') text) :
    Shortens text (text.filter fun c => c ≠ '\t' && c ≠ '\n') := by
  intro rest
  rw [withoutLayout, placed_append, h.after_eq, dropNameSpaces_append h.not_of_mem, map_snd_placed,
    List.filter_append]
  rfl

theorem of_not_isControl (h : Free (· = ':') text) (hcontrol : ∀ c ∈ text, ¬ IsControl c) :
    Shortens text text := by
  have hkept : text.filter (fun c => c ≠ '\t' && c ≠ '\n') = text := by
    rw [List.filter_eq_self]
    intro c hc
    have htab : c ≠ '\t' := by
      rintro rfl
      exact hcontrol _ hc (by decide)
    have hfeed : c ≠ '\n' := by
      rintro rfl
      exact hcontrol _ hc (by decide)
    simp [htab, hfeed]
  have hfilter := filter h
  rwa [hkept] at hfilter

theorem newline (depth : Nat) : Shortens (Value.newline depth) [] := by
  have hchars : ∀ c ∈ Value.newline depth, c = '\n' ∨ c = '\t' := by
    simp only [Value.newline, List.mem_cons, List.mem_replicate]
    tauto
  have hfree : Free (· = ':') (Value.newline depth) := .of_forall fun c hc => by
    rcases hchars c hc with rfl | rfl <;> decide
  have hdeleted : (Value.newline depth).filter (fun c => c ≠ '\t' && c ≠ '\n') = [] := by
    rw [List.filter_eq_nil_iff]
    intro c hc
    rcases hchars c hc with rfl | rfl <;> decide
  have hfilter := filter hfree
  rwa [hdeleted] at hfilter

theorem space : Shortens [':', ' '] [':'] := fun _ => rfl

theorem mark {c : Char} (hquote : c ≠ '"') (hcolon : c ≠ ':') (hcontrol : ¬ IsControl c) :
    Shortens [c] [c] :=
  of_not_isControl (.singleton hquote hcolon) (by simpa using hcontrol)

theorem intercalate {separator : List Char} (hseparator : Shortens separator [','])
    {texts shorts : List (List Char)} (h : List.Forall₂ Shortens texts shorts) :
    Shortens (separator.intercalate texts) ([','].intercalate shorts) := by
  induction h with
  | nil => exact nil
  | @cons text short texts shorts htext htexts ih =>
    cases htexts with
    | nil => simpa using htext
    | cons =>
      rw [List.intercalate_cons_cons, List.intercalate_cons_cons]
      exact (htext.append hseparator).append ih

theorem block {openBracket closeBracket : Char} (hopen : Shortens [openBracket] [openBracket])
    (hclose : Shortens [closeBracket] [closeBracket]) {texts shorts : List (List Char)}
    (h : List.Forall₂ Shortens texts shorts) (depth : Nat) :
    Shortens (Value.block depth openBracket closeBracket texts)
      (openBracket :: [','].intercalate shorts ++ [closeBracket]) := by
  by_cases htexts : texts = []
  · subst htexts
    obtain rfl := List.forall₂_nil_left_iff.1 h
    rw [Value.block, if_pos rfl]
    exact hopen.append hclose
  · have hcomma : Shortens [','] [','] := mark (by decide) (by decide) (by decide)
    have hitems := (hcomma.append (newline (depth + 1))).intercalate h
    rw [Value.block, if_neg htexts]
    have hall := ((hopen.append (newline (depth + 1))).append hitems).append
      ((newline depth).append hclose)
    simpa using hall

end Shortens

end Json

open Json

theorem Value.shortens_prettyAt (v : Value) (depth : Nat) :
    Shortens (v.prettyAt depth) v.compact := by
  induction v using Value.induction generalizing depth with
  | scalar v h =>
    rw [prettyAt_of_isScalar h, compact_of_isScalar h]
    refine .of_not_isControl (.scalar (by decide) ?_ h) fun c hc => not_isControl_of_mem_scalar hc
    rintro c hc rfl
    simp [isScalarChar] at hc
  | array elements ih =>
    rw [prettyAt, compact, prettyElements_eq_map, compactElements_eq_map]
    refine .block (.mark (by decide) (by decide) (by decide)) (.mark (by decide) (by decide)
      (by decide)) ?_ depth
    rw [List.forall₂_map_left_iff, List.forall₂_map_right_iff]
    exact List.forall₂_same.2 fun v hv => ih v hv (depth + 1)
  | object fields ih =>
    rw [prettyAt, compact, prettyFields_eq_map, compactFields_eq_map]
    refine .block (.mark (by decide) (by decide) (by decide)) (.mark (by decide) (by decide)
      (by decide)) ?_ depth
    rw [List.forall₂_map_left_iff, List.forall₂_map_right_iff]
    refine List.forall₂_same.2 fun entry hentry => ?_
    have hname : Shortens (Json.string entry.1) (Json.string entry.1) :=
      .of_not_isControl (.string (by decide) _) fun c hc => not_isControl_of_mem_string hc
    have hvalue := ih entry.1 entry.2 (fields.mem_toList_iff.1 hentry) (depth + 1)
    simpa using (hname.append .space).append hvalue

end JsonShorthand
