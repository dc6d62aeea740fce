import ExitRelay.Register.Change
import Mathlib.Data.List.Nodup

/-!
# Legibility of reports

A report on two register files lists the registers whose values differ, in the order in which the
processor numbers them, each with the hexadecimal numerals of its values before and after.  It can
be read back: an entry shows where its name and its numerals end, and what stands behind an entry
shows whether there is another one.  So the report and the values before determine the values
after, as `legibility` says.
-/

namespace ExitRelay

namespace Word

/-- The digits of hexadecimal numerals, each at the position of its value. -/
def digits : List Char :=
  ['0', '1', '2', '3', '4', '5', '6', '7', '8', '9', 'a', 'b', 'c', 'd', 'e', 'f']

/-- The number that digits write. -/
def value (ds : List Char) : Nat :=
  ds.foldl (fun n c => 16 * n + digits.idxOf c) 0

/-- The digits write the number, and none in front is superfluous. -/
structure Numeral (n : Nat) (ds : List Char) : Prop where
  ne_nil : ds ≠ []
  mem_digits : ∀ c ∈ ds, c ∈ digits
  value_eq : value ds = n
  eq_of_head : ds.head? = some '0' → ds = ['0']

variable {n d : Nat} {ds : List Char} {c : Char} {w : UInt64}

theorem numeral_digitChar (hd : d < 16) :
  Numeral d [Nat.digitChar d]
  := by
  have table : ∀ k < 16, Nat.digitChar k ∈ digits ∧ value [Nat.digitChar k] = k := by decide
  obtain ⟨hmem, hvalue⟩ := table d hd
  constructor
  · exact List.cons_ne_nil _ _
  · intro c hc
    rw [List.mem_singleton.mp hc]
    exact hmem
  · exact hvalue
  · intro h
    rw [Option.some.inj h]

/-- A digit behind the numeral of a number other than zero makes another numeral. -/
theorem Numeral.concat (h : Numeral n ds) (hn : n ≠ 0) (hd : d < 16) :
  Numeral (16 * n + d) (ds ++ [Nat.digitChar d])
  := by
  have hlast := numeral_digitChar hd
  constructor
  · exact List.append_ne_nil_of_left_ne_nil h.ne_nil _
  · intro c hc
    exact (List.mem_append.mp hc).elim (h.mem_digits c) (hlast.mem_digits c)
  · have hc : 16 * 0 + digits.idxOf (Nat.digitChar d) = d := hlast.value_eq
    have hn : List.foldl (fun n c => 16 * n + digits.idxOf c) 0 ds = n := h.value_eq
    rw [value, List.foldl_concat, hn]
    omega
  · intro hhead
    rw [List.head?_append_of_ne_nil _ h.ne_nil] at hhead
    have hz := h.value_eq
    rw [h.eq_of_head hhead] at hz
    exact absurd hz.symm hn

theorem numeral_toDigits (n : Nat) :
  Numeral n (Nat.toDigits 16 n)
  := by
  induction n using Nat.strongRecOn with
  | ind n ih =>
      have hbase : 1 < 16 := by decide
      by_cases hn : n < 16
      · rw [Nat.toDigits_of_lt_base hn]
        exact numeral_digitChar hn
      · have hle : 16 ≤ n := Nat.le_of_not_lt hn
        have hdiv : n / 16 ≠ 0 := by omega
        rw [Nat.toDigits_of_base_le hbase hle]
        have h := (ih (n / 16) (by omega)).concat hdiv (Nat.mod_lt n (by decide))
        rw [Nat.div_add_mod] at h
        exact h

theorem toList_hex (w : UInt64) :
  (hex w).toList = '0' :: 'x' :: Nat.toDigits 16 w.toNat
  := by
  rw [hex, String.toList_append, String.toList_ofList (l := Nat.toDigits 16 _)]
  rfl

theorem not_mem_toList_hex (hc : c ∉ digits) (hx : c ≠ 'x') :
  c ∉ (hex w).toList
  := by
  rw [toList_hex, List.mem_cons, List.mem_cons]
  rintro (rfl | h | h)
  · exact hc List.mem_cons_self
  · exact hx h
  · exact hc ((numeral_toDigits _).mem_digits c h)

/-- A word can be read off its text. -/
theorem hex_injective :
  Function.Injective hex
  := by
  intro v w h
  have hl : Nat.toDigits 16 v.toNat = Nat.toDigits 16 w.toNat := by
    have hl := congrArg String.toList h
    rw [toList_hex, toList_hex] at hl
    exact (List.cons.inj (List.cons.inj hl).2).2
  apply UInt64.toNat_inj.mp
  rw [← (numeral_toDigits v.toNat).value_eq, hl, (numeral_toDigits w.toNat).value_eq]

end Word

namespace Register

/-- Registers have the names that their numbers encode. -/
theorem encodingName?_number (r : Register) :
  encodingName? r.number = some r.name
  := by
  have hne : r.number ≠ stackPointerNumber := by cases r <;> decide
  rw [encodingName?, if_neg hne, ofNumber?_number, Option.map_some]

theorem name_injective :
  Function.Injective name
  := by
  have hn : (all.map name).Nodup := by decide
  intro r s h
  exact List.inj_on_of_nodup_map hn (mem_all r) (mem_all s) h

theorem not_mem_toList_name (r : Register) :
  ':' ∉ r.name.toList
  := by
  cases r <;> decide

theorem pairwise_all :
  all.Pairwise fun r s => r.number < s.number
  := by
  decide

end Register

section Delimiters

variable {α : Type} {k : α} {x y z u v : List α}

theorem eq_nil_of_cons_eq_append (hz : k ∉ z) (h : k :: u = z ++ k :: v) :
  z = [] ∧ u = v
  := by
  cases z with
  | nil => exact ⟨rfl, (List.cons.inj h).2⟩
  | cons a z =>
      rw [← (List.cons.inj h).1] at hz
      exact absurd List.mem_cons_self hz

/-- What stands before the first occurrence of an element shows where it ends. -/
theorem eq_of_append_cons_eq (hx : k ∉ x) (hy : k ∉ y) (h : x ++ k :: u = y ++ k :: v) :
  x = y ∧ u = v
  := by
  -- One of the two lists begins with the other, and the element does not stand in its rest.
  rcases List.append_eq_append_iff.mp h with ⟨z, rfl, hu⟩ | ⟨z, rfl, hv⟩
  · obtain ⟨rfl, huv⟩ := eq_nil_of_cons_eq_append (mt (List.mem_append_right x) hy) hu
    exact ⟨(List.append_nil x).symm, huv⟩
  · obtain ⟨rfl, hvu⟩ := eq_nil_of_cons_eq_append (mt (List.mem_append_right y) hx) hv
    exact ⟨List.append_nil y, hvu.symm⟩

end Delimiters

namespace RegisterChange

/-- The text of the change: the name of the register and the numerals of its values before and
after. -/
inductive Entry (c : RegisterChange) : String → Prop where
  | mk {name : String} {before after : List Char}
      (hname : Register.encodingName? c.register.number = some name)
      (hbefore : Word.Numeral c.before.toNat before) (hafter : Word.Numeral c.after.toNat after) :
      Entry c (name ++ ": \"" ++ ("0x" ++ String.ofList before) ++ " -> " ++
        ("0x" ++ String.ofList after) ++ "\"")

theorem entry_text (c : RegisterChange) :
  c.Entry c.text
  :=
  .mk (Register.encodingName?_number c.register) (Word.numeral_toDigits _)
    (Word.numeral_toDigits _)

/-- The name, the value before and the value after each end at a character that they do not
contain. -/
theorem toList_text_append (c : RegisterChange) (u : List Char) :
  c.text.toList ++ u =
    c.register.name.toList ++ ':' :: ([' ', '"'] ++ ((Word.hex c.before).toList ++
      ' ' :: (['-', '>', ' '] ++ ((Word.hex c.after).toList ++ '"' :: u))))
  := by
  simp [text]

/-- The text of a change shows where it ends, and tells the change. -/
theorem eq_of_text_append_eq {c d : RegisterChange} {u v : List Char}
    (h : c.text.toList ++ u = d.text.toList ++ v) :
  c = d ∧ u = v
  := by
  have hspace : ∀ w, ' ' ∉ (Word.hex w).toList := fun w =>
    Word.not_mem_toList_hex (by decide) (by decide)
  have hquote : ∀ w, '"' ∉ (Word.hex w).toList := fun w =>
    Word.not_mem_toList_hex (by decide) (by decide)
  rw [toList_text_append, toList_text_append] at h
  obtain ⟨hname, h⟩ := eq_of_append_cons_eq (Register.not_mem_toList_name _)
    (Register.not_mem_toList_name _) h
  obtain ⟨hbefore, h⟩ := eq_of_append_cons_eq (hspace _) (hspace _) (List.append_cancel_left h)
  obtain ⟨hafter, h⟩ := eq_of_append_cons_eq (hquote _) (hquote _) (List.append_cancel_left h)
  refine ⟨?_, h⟩
  obtain ⟨r, b, a⟩ := c
  obtain ⟨s, b', a'⟩ := d
  rw [mk.injEq]
  exact ⟨Register.name_injective (String.toList_inj.mp hname),
    Word.hex_injective (String.toList_inj.mp hbefore),
    Word.hex_injective (String.toList_inj.mp hafter)⟩

/-- What stands behind the text of a change when others follow it. -/
def others : List RegisterChange → List Char
  | [] => [' ', '\x7d']
  | c :: cs => [',', ' '] ++ (c.text.toList ++ others cs)

/-- What stands behind the heading of a report. -/
def body : List RegisterChange → List Char
  | [] => []
  | c :: cs => [' ', '\x7b', ' '] ++ (c.text.toList ++ others cs)

theorem others_injective :
  Function.Injective others
  := by
  intro cs
  induction cs with
  | nil =>
      rintro (_ | ⟨d, ds⟩) h
      · rfl
      · exact absurd (List.cons.inj h).1 (by decide)
  | cons c cs ih =>
      rintro (_ | ⟨d, ds⟩) h
      · exact absurd (List.cons.inj h).1 (by decide)
      · obtain ⟨rfl, hothers⟩ := eq_of_text_append_eq (List.append_cancel_left h)
        rw [ih hothers]

theorem body_injective :
  Function.Injective body
  := by
  rintro (_ | ⟨c, cs⟩) (_ | ⟨d, ds⟩) h
  · rfl
  · exact absurd h (List.cons_ne_nil _ _).symm
  · exact absurd h (List.cons_ne_nil _ _)
  · obtain ⟨rfl, hothers⟩ := eq_of_text_append_eq (List.append_cancel_left h)
    rw [others_injective hothers]

theorem toList_intercalate_append (c : RegisterChange) (cs : List RegisterChange) :
  (", ".intercalate ((c :: cs).map text)).toList ++ [' ', '\x7d'] = c.text.toList ++ others cs
  := by
  induction cs generalizing c with
  | nil => rw [List.map_singleton, String.intercalate_singleton, others]
  | cons d cs ih =>
      rw [List.map_cons, List.map_cons, String.intercalate_cons_cons, String.toList_append,
        String.toList_append, List.append_assoc, List.append_assoc, others]
      rw [← List.map_cons, ih d]
      rfl

end RegisterChange

namespace Registers

variable {old new : Registers}

/-- A report that lists changes: those of the registers whose values differ, each once and by
ascending number, in braces behind the heading.  Without changes there is the heading alone. -/
structure Listing (old new : Registers) (cs : List RegisterChange) (entries : List String)
    (text : String) : Prop where
  mem_iff : ∀ c, c ∈ cs ↔ old.get c.register ≠ new.get c.register ∧
    c.before = old.get c.register ∧ c.after = new.get c.register
  ascending : cs.Pairwise fun c d => c.register.number < d.register.number
  forall₂_entry : List.Forall₂ RegisterChange.Entry cs entries
  text_eq : text = if entries = [] then "GeneralRegistersDiff" else
    "GeneralRegistersDiff \x7b " ++ ", ".intercalate entries ++ " \x7d"

theorem ascending_changes (old new : Registers) :
  (changes old new).Pairwise fun c d => c.register.number < d.register.number
  := by
  apply Register.pairwise_all.filterMap
  intro r s hrs c hc d hd
  obtain ⟨-, hc⟩ := Option.ite_none_left_eq_some.mp hc
  obtain ⟨-, hd⟩ := Option.ite_none_left_eq_some.mp hd
  obtain rfl := Option.some.inj hc
  obtain rfl := Option.some.inj hd
  exact hrs

theorem report_of_nil (h : changes old new = []) :
  report old new = "GeneralRegistersDiff"
  := by
  rw [report, h]

theorem report_of_cons {c : RegisterChange} {cs : List RegisterChange}
    (h : changes old new = c :: cs) :
  report old new = "GeneralRegistersDiff \x7b " ++
    ", ".intercalate ((c :: cs).map RegisterChange.text) ++ " \x7d"
  := by
  rw [report, h]

theorem listing (old new : Registers) :
  Listing old new (changes old new) ((changes old new).map RegisterChange.text) (report old new)
  where
  mem_iff := fun _ => mem_changes
  ascending := ascending_changes old new
  forall₂_entry := by
    rw [List.forall₂_map_right_iff, List.forall₂_same]
    intro c _
    exact c.entry_text
  text_eq := by
    cases h : changes old new with
    | nil => exact report_of_nil h
    | cons c cs => exact report_of_cons h

/-- A report is its heading and what the changes put behind it. -/
theorem toList_report (old new : Registers) :
  (report old new).toList = "GeneralRegistersDiff".toList ++ RegisterChange.body (changes old new)
  := by
  cases h : changes old new with
  | nil => rw [report_of_nil h, RegisterChange.body, List.append_nil]
  | cons c cs =>
      have hopening : "GeneralRegistersDiff \x7b ".toList =
          "GeneralRegistersDiff".toList ++ [' ', '\x7b', ' '] := by decide
      have hclosing : " \x7d".toList = [' ', '\x7d'] := by decide
      rw [report_of_cons h, RegisterChange.body, ← RegisterChange.toList_intercalate_append,
        String.toList_append, String.toList_append, hopening, hclosing, List.append_assoc,
        List.append_assoc]

/-- The changes can be read off a report. -/
theorem changes_eq_of_report_eq {old' new' : Registers} (h : report old new = report old' new') :
  changes old new = changes old' new'
  := by
  apply RegisterChange.body_injective
  have hl := congrArg String.toList h
  rw [toList_report, toList_report] at hl
  exact List.append_cancel_left hl

/-- The changes and the values before determine the values after. -/
theorem eq_of_changes_eq {new' : Registers} (h : changes old new = changes old new') :
  new = new'
  := by
  apply ext_get
  intro r
  have hmem : ∀ {a b : Registers}, changes old a = changes old b → old.get r ≠ a.get r →
      a.get r = b.get r := by
    intro a b hab hne
    have hc : (⟨r, old.get r, a.get r⟩ : RegisterChange) ∈ changes old a :=
      mem_changes.mpr ⟨hne, rfl, rfl⟩
    rw [hab] at hc
    exact (mem_changes.mp hc).2.2
  by_cases hr : old.get r = new.get r
  · by_cases hr' : old.get r = new'.get r
    · exact hr.symm.trans hr'
    · exact (hmem h.symm hr').symm
  · exact hmem h hr

/-- A report lists exactly the registers whose values differ, each once and in the order of their
numbers, with their values before and after.  It lists none if and only if the register files are
equal, and together with the values before it determines the values after. -/
theorem legibility (old new : Registers) :
  (∃ cs entries, Listing old new cs entries (report old new)) ∧
    (old = new ↔ report old new = "GeneralRegistersDiff") ∧
    ∀ new', report old new = report old new' → new = new'
  := by
  have hself : ∀ regs, report regs regs = "GeneralRegistersDiff" := fun regs =>
    report_of_nil (changes_eq_nil_iff.mpr rfl)
  have hinj : ∀ new', report old new = report old new' → new = new' := fun new' h =>
    eq_of_changes_eq (changes_eq_of_report_eq h)
  refine ⟨⟨_, _, listing old new⟩, ?_, hinj⟩
  constructor
  · rintro rfl
    exact hself old
  · intro h
    exact (hinj old (h.trans (hself old).symm)).symm

example : report {} { r10 := 5, r13 := 0xdead } =
    "GeneralRegistersDiff \x7b r10: \"0x0 -> 0x5\", r13: \"0x0 -> 0xdead\" \x7d" := by
  decide +kernel

end Registers

end ExitRelay
