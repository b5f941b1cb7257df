import TypedRoutes.Proofs.PrintedNumbers
import Mathlib.Data.List.Forall2

/-! # Values are read as they were printed

What a text gives can be printed and is then read again.  Only its doubles may change, since their
decimals are not computed exactly.
-/

namespace TypedRoutes.Json
open TypedRoutes.Decimal

/-- Keys in ascending order, each once. -/
def Ascending (fields : List (String × Value)) : Prop := fields.Pairwise fun f g => f.1 < g.1

/-- A value that a text can give: it does not nest deeper than allowed, its numbers have room, and
the keys of its objects are in order. -/
inductive Readable : Nat → Value → Prop
  | null {depth : Nat} : Readable (depth + 1) .null
  | bool {depth : Nat} (b : Bool) : Readable (depth + 1) (.bool b)
  | number {depth : Nat} {n : Number} (h : n.IsReadable) : Readable (depth + 1) (.number n)
  | string {depth : Nat} (s : String) : Readable (depth + 1) (.string s)
  | array {depth : Nat} {items : List Value} (h : ∀ v ∈ items, Readable (depth + 1) v) :
      Readable (depth + 2) (.array items)
  | object {depth : Nat} {fields : List (String × Value)} (hkeys : Ascending fields)
      (h : ∀ f ∈ fields, Readable (depth + 1) f.2) : Readable (depth + 2) (.object fields)

/-! ## Printing and reading again -/

def Number.reread (n : Number) : Number :=
  match parse (String.ofList n.text) with
  | .ok (.number m) => m
  | _ => n

mutual

def Value.reread : Value → Value
  | .null => .null
  | .bool b => .bool b
  | .number n => .number n.reread
  | .string s => .string s
  | .array items => .array (rereadItems items)
  | .object fields => .object (rereadFields fields)

def rereadItems : List Value → List Value
  | [] => []
  | v :: vs => v.reread :: rereadItems vs

def rereadFields : List (String × Value) → List (String × Value)
  | [] => []
  | (k, v) :: fs => (k, v.reread) :: rereadFields fs

end

theorem rereadItems_eq (vs : List Value) : rereadItems vs = vs.map Value.reread := by
  induction vs with
  | nil => rfl
  | cons v vs ih => rw [rereadItems, ih, List.map_cons]

theorem rereadFields_eq (fs : List (String × Value)) :
    rereadFields fs = fs.map fun f => (f.1, f.2.reread) := by
  induction fs with
  | nil => rfl
  | cons f fs ih => rw [rereadFields, ih, List.map_cons]

/-! ## Objects in order -/

theorem mem_insertField {key : String} {v : Value} {fields : List (String × Value)}
    {f : String × Value} (h : f ∈ Value.insertField key v fields) : f = (key, v) ∨ f ∈ fields := by
  induction fields with
  | nil => simpa [Value.insertField] using h
  | cons g fields ih =>
    obtain ⟨k, w⟩ := g
    unfold Value.insertField at h
    split at h
    · obtain rfl | h := List.mem_cons.1 h
      · exact .inl rfl
      · exact .inr (.tail _ h)
    · split at h
      · exact List.mem_cons.1 h
      · obtain rfl | h := List.mem_cons.1 h
        · exact .inr (.head _)
        · exact (ih h).imp_right fun h => .tail _ h

theorem lt_of_not_lt {a b : String} (h : ¬a < b) (hne : a ≠ b) : b < a :=
  Decidable.byContradiction fun h' =>
    hne (String.le_antisymm (String.not_lt.1 h') (String.not_lt.1 h))

theorem Ascending.insertField {fields : List (String × Value)} (h : Ascending fields) (key : String)
    (v : Value) : Ascending (Value.insertField key v fields) := by
  induction fields with
  | nil => exact List.pairwise_singleton _ _
  | cons f fields ih =>
    obtain ⟨k, w⟩ := f
    obtain ⟨hhead, htail⟩ := List.pairwise_cons.1 h
    unfold Value.insertField
    split
    · rename_i hkey
      subst hkey
      exact List.pairwise_cons.2 ⟨hhead, htail⟩
    · rename_i hne
      split
      · rename_i hlt
        refine List.pairwise_cons.2 ⟨fun g hg => ?_, h⟩
        obtain rfl | hg := List.mem_cons.1 hg
        · exact hlt
        · exact String.lt_trans hlt (hhead g hg)
      · rename_i hnot
        have hlt : k < key := lt_of_not_lt hnot hne
        refine List.pairwise_cons.2 ⟨fun g hg => ?_, ih htail⟩
        obtain rfl | hg := mem_insertField hg
        · exact hlt
        · exact hhead g hg

theorem insertField_append {fields : List (String × Value)} {key : String} (v : Value)
    (h : ∀ f ∈ fields, f.1 < key) : Value.insertField key v fields = fields ++ [(key, v)] := by
  induction fields with
  | nil => rfl
  | cons f fields ih =>
    obtain ⟨k, w⟩ := f
    have hlt : k < key := h _ (.head _)
    have hne : key ≠ k := by
      rintro rfl
      exact String.lt_irrefl key hlt
    unfold Value.insertField
    rw [if_neg hne, if_neg (String.lt_asymm hlt), ih fun f hf => h f (.tail _ hf)]
    rfl

theorem ascending_foldl (fields acc : List (String × Value)) (h : Ascending acc) :
    Ascending (fields.foldl (fun acc f => Value.insertField f.1 f.2 acc) acc) := by
  induction fields generalizing acc with
  | nil => exact h
  | cons f fields ih => exact ih _ (h.insertField f.1 f.2)

theorem mem_foldl_insertField {fields acc : List (String × Value)} {f : String × Value}
    (h : f ∈ fields.foldl (fun acc f => Value.insertField f.1 f.2 acc) acc) :
    f ∈ fields ∨ f ∈ acc := by
  induction fields generalizing acc with
  | nil => exact .inr h
  | cons g fields ih =>
    obtain hf | hf := ih h
    · exact .inl (.tail _ hf)
    · obtain rfl | hf := mem_insertField hf
      · exact .inl (.head _)
      · exact .inr hf

theorem foldl_insertField_of_ascending (fields acc : List (String × Value))
    (h : Ascending (acc ++ fields)) :
    fields.foldl (fun acc f => Value.insertField f.1 f.2 acc) acc = acc ++ fields := by
  induction fields generalizing acc with
  | nil => simp
  | cons f fields ih =>
    have hbelow : ∀ g ∈ acc, g.1 < f.1 :=
      fun g hg => (List.pairwise_append.1 h).2.2 g hg f (.head _)
    rw [List.foldl_cons, insertField_append f.2 hbelow]
    rw [List.append_cons] at h
    rw [ih _ h, ← List.append_cons]

theorem ofFields_of_ascending {fields : List (String × Value)} (h : Ascending fields) :
    Value.ofFields fields = .object fields :=
  congrArg Value.object (foldl_insertField_of_ascending fields [] h)

theorem readable_ofFields {depth : Nat} {fields : List (String × Value)}
    (h : ∀ f ∈ fields, Readable (depth + 1) f.2) :
    Readable (depth + 2) (Value.ofFields fields) := by
  refine .object (ascending_foldl fields [] List.Pairwise.nil) fun f hf => ?_
  obtain hf | hf := mem_foldl_insertField hf
  · exact h f hf
  · cases hf

/-! ## What a text can give -/

namespace Reader

section Yields
variable {α : Type} {P : α → Prop}

theorem yields_items {item : Reader α} (h : Yields item P) (first : Bool) (fuel : Nat) :
    Yields (items item first fuel) fun as => ∀ a ∈ as, P a := by
  induction fuel generalizing first with
  | zero => exact Yields.fail _
  | succ fuel ih =>
    refine Yields.after fun b => ?_
    split
    · refine h.bind fun a ha => (ih false).bind fun as has => Yields.pure ?_
      exact List.forall_mem_cons.2 ⟨ha, has⟩
    · exact Yields.after fun _ => Yields.pure (by simp)

theorem yields_fields {field : String → Reader α} (h : ∀ key, Yields (field key) P) (first : Bool)
    (fuel : Nat) : Yields (fields field first fuel) fun as => ∀ a ∈ as, P a := by
  induction fuel generalizing first with
  | zero => exact Yields.fail _
  | succ fuel ih =>
    refine Yields.after fun b => ?_
    split
    · refine Yields.after fun _ => Yields.after fun key => Yields.after fun _ => ?_
      refine (h key).bind fun a ha => (ih false).bind fun as has => Yields.pure ?_
      exact List.forall_mem_cons.2 ⟨ha, has⟩
    · exact Yields.after fun _ => Yields.pure (by simp)

end Yields

theorem yields_value (depth : Nat) : Yields (value depth) (Readable depth) := by
  induction depth with
  | zero => exact Yields.failNext _
  | succ depth ih =>
    unfold value
    refine Yields.after fun c => ?_
    split
    · exact Yields.failNext _
    · exact Yields.after fun _ => Yields.after fun _ => Yields.pure .null
    · exact Yields.after fun _ => Yields.after fun _ => Yields.pure (.bool true)
    · exact Yields.after fun _ => Yields.after fun _ => Yields.pure (.bool false)
    · exact Yields.after fun _ => Yields.after fun s => Yields.pure (.string s)
    · exact Yields.after fun _ => (yields_number false).bind fun n hn => Yields.pure (.number hn)
    · cases depth with
      | zero => exact Yields.bind (Q := fun _ => False) (Yields.failNext _) fun _ h => h.elim
      | succ depth =>
        refine Yields.after fun _ => Yields.after fun n => ?_
        exact (yields_items ih true _).bind fun vs hvs => Yields.pure (.array hvs)
    · cases depth with
      | zero => exact Yields.bind (Q := fun _ => False) (Yields.failNext _) fun _ h => h.elim
      | succ depth =>
        refine Yields.after fun _ => Yields.after fun n => ?_
        refine (yields_fields (P := fun f => Readable (depth + 1) f.2) ?_ true _).bind
          fun fs hfs => ?_
        · exact fun key => ih.bind fun v hv => Yields.pure hv
        · exact Yields.pure (readable_ofFields hfs)
    · split
      · exact (yields_number true).bind fun n hn => Yields.pure (.number hn)
      · exact Yields.failNext _

/-! ## Reading what was printed -/

theorem startsValue_of_isDigit {c : Char} (h : c.isDigit = true) : startsValue c = true := by
  have hbound := Char.isDigit_iff_toNat.1 h
  have hne : ∀ d : Char, d.isDigit = false → c ≠ d := by
    rintro d hd rfl
    rw [h] at hd
    cases hd
  simp [startsValue, isBlank, hne ' ' (by decide), hne '\n' (by decide), hne '\t' (by decide),
    hne '\r' (by decide), hne ']' (by decide), hne '\x7d' (by decide), hne ',' (by decide),
    hne ':' (by decide)]

theorem reads_null (depth : Nat) : Reads (value (depth + 1)) "null".toList .null :=
  Reads.of_token (by decide) fun rest _ => (runs_skip 'n' _).bind
    ((runs_word "ull".toList rest).bind (Runs.pure _ rest))

theorem reads_bool (depth : Nat) (b : Bool) :
    Reads (value (depth + 1)) (if b then "true" else "false").toList (.bool b) := by
  cases b
  · exact Reads.of_token (by decide) fun rest _ => (runs_skip 'f' _).bind
      ((runs_word "alse".toList rest).bind (Runs.pure _ rest))
  · exact Reads.of_token (by decide) fun rest _ => (runs_skip 't' _).bind
      ((runs_word "rue".toList rest).bind (Runs.pure _ rest))

theorem reads_string (depth : Nat) (s : String) :
    Reads (value (depth + 1)) (quoted s) (.string s) := by
  rw [quoted_eq_cons]
  refine Reads.of_token (by decide) fun rest _ => (runs_skip '"' _).bind ?_
  rw [List.append_assoc]
  exact (runs_stringRest s rest).bind (Runs.pure _ rest)

theorem IsNumeral.starts {positive : Bool} {text : List Char} {n : Number}
    (h : IsNumeral positive text n) : ∃ c cs, text = c :: cs ∧ c.isDigit = true := by
  obtain ⟨p, h⟩ := h [] (by simp [Stops]) {}
  rw [List.append_nil, number_eq] at h
  obtain ⟨c, s, hpeek, h⟩ := bind_eq_ok h
  cases hpeek
  cases text with
  | nil => cases h
  | cons c cs =>
    refine ⟨c, cs, rfl, ?_⟩
    by_contra hdigit
    rw [Bool.not_eq_true] at hdigit
    simp only [List.head?_cons, hdigit, Bool.not_false, if_true] at h
    obtain ⟨_, _, -, h⟩ := bind_eq_ok h
    cases h

theorem exists_reads_number {n : Number} (h : n.IsReadable) :
    ∃ m : Number, m.IsReadable ∧ (∀ k, n = .integer k → m = n) ∧
      ∀ depth, Reads (value (depth + 1)) n.text (.number m) := by
  obtain ⟨positive, text, m, htext, hm, hinteger, hnumeral⟩ := exists_isNumeral_text h
  refine ⟨m, hm, hinteger, fun depth => ?_⟩
  rw [htext]
  cases positive
  · exact Reads.of_token (by decide) fun rest hrest => (runs_skip '-' _).bind
      ((hnumeral rest hrest).bind (Runs.pure _ rest))
  · obtain ⟨c, cs, rfl, hdigit⟩ := hnumeral.starts
    refine Reads.of_token (startsValue_of_isDigit hdigit) fun rest hrest => ?_
    have hruns : Runs (do return Value.number (← number true)) (c :: (cs ++ rest)) (.number m)
        rest :=
      (hnumeral rest hrest).bind (Runs.pure _ rest)
    split
    case h_9 =>
      rename_i heq
      obtain rfl := Option.some.inj heq
      rw [if_pos hdigit]
      exact hruns
    case h_1 =>
      rename_i heq
      cases heq
    -- no digit is the first character of another kind of value
    all_goals
      rename_i heq
      rw [Option.some.inj heq] at hdigit
      cases hdigit

section Brackets
variable {depth : Nat} {text : Value → List Char} {read : Value → Value}

theorem reads_array {items : List Value}
    (h : ∀ v ∈ items, Reads (value (depth + 1)) (text v) (read v)) (k : Nat) :
    Reads (value (depth + 2)) (bracketed '[' ']' k (items.map text)) (.array (items.map read)) := by
  have hitems : List.Forall₂ (Reads (value (depth + 1))) (items.map text) (items.map read) :=
    List.forall₂_map_left_iff.2 (List.forall₂_map_right_iff.2 (List.forall₂_same.2 h))
  rw [bracketed_eq]
  refine Reads.of_token (by decide) fun rest _ => (runs_skip '[' _).bind ?_
  have hruns := Runs.bind (f := fun vs => pure (Value.array vs)) (runs_items hitems k rest)
    (Runs.pure _ rest)
  rwa [bind_assoc] at hruns

theorem reads_object {fields : List (String × Value)}
    (h : ∀ f ∈ fields, Reads (value (depth + 1)) (text f.2) (read f.2)) (k : Nat) :
    Reads (value (depth + 2))
      (bracketed '\x7b' '\x7d' k (fields.map fun f => fieldText f.1 (text f.2)))
      (Value.ofFields (fields.map fun f => (f.1, read f.2))) := by
  have hentries : ∀ e ∈ fields.map fun f => (f.1, text f.2, f.1, read f.2),
      Reads (do return (e.1, ← value (depth + 1))) e.2.1 e.2.2 := by
    intro e he
    obtain ⟨f, hf, rfl⟩ := List.mem_map.1 he
    exact (h f hf).map fun v => (f.1, v)
  rw [bracketed_eq]
  refine Reads.of_token (by decide) fun rest _ => (runs_skip '\x7b' _).bind ?_
  have hruns := Runs.bind (f := fun fs => pure (Value.ofFields fs))
    (runs_fields (fun key => do return (key, ← value (depth + 1))) hentries k rest)
    (Runs.pure _ rest)
  rw [bind_assoc, List.map_map, List.map_map] at hruns
  exact hruns

end Brackets

end Reader

theorem parse_of_reads {text : List Char} {v : Value}
    (h : Reader.Reads (Reader.value Reader.depthLimit) text v) :
    parse (String.ofList text) = .ok v := by
  obtain ⟨s, hs⟩ := h.run_whole
  unfold parse
  rw [String.toList_ofList]
  exact congrArg (fun r => r >>= fun vs => Except.ok vs.1) hs

/-- A text gives only what can be printed. -/
theorem readable_of_parse {text : String} {v : Value} (h : parse text = .ok v) :
    Readable Reader.depthLimit v := by
  have hyields : Reader.Yields (do
      let v ← Reader.value Reader.depthLimit
      Reader.finish
      return v) (Readable Reader.depthLimit) :=
    (Reader.yields_value _).bind fun _ hv => Reader.Yields.after fun _ => Reader.Yields.pure hv
  unfold parse at h
  cases hrun : (do
      let v ← Reader.value Reader.depthLimit
      Reader.finish
      return v : Reader Value).run { rest := text.toList } with
  | error e =>
    rw [hrun] at h
    cases h
  | ok w =>
    rw [hrun] at h
    obtain rfl : w.1 = v := Except.ok.inj h
    exact hyields _ _ _ hrun

theorem parse_eq_object {text : String} {fields : List (String × Value)}
    (h : (parse text).toOption.bind Value.fields? = some fields) :
    parse text = .ok (.object fields) := by
  cases hparse : parse text with
  | error e => simp [hparse, Except.toOption] at h
  | ok v => cases v <;> simp_all [Except.toOption, Value.fields?]

/-! ## Numbers as they are read -/

theorem reads_number_reread {n : Number} (h : n.IsReadable) (depth : Nat) :
    Reader.Reads (Reader.value (depth + 1)) n.text (.number n.reread) := by
  obtain ⟨m, -, -, hreads⟩ := Reader.exists_reads_number h
  have hm : n.reread = m := by rw [Number.reread, parse_of_reads (hreads 127)]
  rw [hm]
  exact hreads depth

theorem reread_integer {k : Int} (h : (Number.integer k).IsReadable) :
    (Number.integer k).reread = .integer k := by
  obtain ⟨m, -, hinteger, hreads⟩ := Reader.exists_reads_number h
  rw [Number.reread, parse_of_reads (hreads 127)]
  exact hinteger k rfl

/-! ## Values as they are read -/

/-- What was printed is read again, but for what becomes of its doubles. -/
theorem Readable.reads {depth : Nat} {v : Value} (h : Readable depth v) (k : Nat) :
    Reader.Reads (Reader.value depth) (v.prettyChars k) v.reread := by
  induction h generalizing k with
  | null => exact Reader.reads_null _
  | bool b => exact Reader.reads_bool _ b
  | number h => exact reads_number_reread h _
  | string s => exact Reader.reads_string _ s
  | array _ ih =>
    rw [Value.prettyChars, Value.reread, Reader.prettyItems_eq, rereadItems_eq]
    exact Reader.reads_array (fun v hv => ih v hv (k + 1)) k
  | @object depth fields hkeys _ ih =>
    have hordered : Ascending (fields.map fun f => (f.1, f.2.reread)) := List.pairwise_map.2 hkeys
    rw [Value.prettyChars, Value.reread, Reader.prettyFields_eq, rereadFields_eq,
      ← ofFields_of_ascending hordered]
    exact Reader.reads_object (fun f hf => ih f hf (k + 1)) k

/-- A value that is read again as it was. -/
structure Kept (depth : Nat) (v : Value) : Prop where
  readable : Readable depth v
  reread : v.reread = v

section Kept
variable {depth : Nat}

theorem kept_null : Kept (depth + 1) .null := ⟨.null, rfl⟩

theorem kept_bool (b : Bool) : Kept (depth + 1) (.bool b) := ⟨.bool b, rfl⟩

theorem kept_string (s : String) : Kept (depth + 1) (.string s) := ⟨.string s, rfl⟩

theorem kept_array {items : List Value} (h : ∀ v ∈ items, Kept (depth + 1) v) :
    Kept (depth + 2) (.array items) := by
  refine ⟨.array fun v hv => (h v hv).readable, ?_⟩
  rw [Value.reread, rereadItems_eq, List.map_congr_left fun v hv => (h v hv).reread, List.map_id']

theorem kept_ofFields {fields : List (String × Value)} (h : ∀ f ∈ fields, Kept (depth + 1) f.2) :
    Kept (depth + 2) (Value.ofFields fields) := by
  refine ⟨readable_ofFields fun f hf => (h f hf).readable, ?_⟩
  have hsame : ∀ f ∈ fields.foldl (fun acc f => Value.insertField f.1 f.2 acc) [],
      (f.1, f.2.reread) = f := by
    intro f hf
    obtain hf | hf := mem_foldl_insertField hf
    · rw [(h f hf).reread]
    · cases hf
  rw [Value.ofFields, Value.reread, rereadFields_eq]
  exact congrArg Value.object ((List.map_congr_left hsame).trans (List.map_id' _))

end Kept

theorem parse_pretty {v : Value} (h : Readable Reader.depthLimit v) :
    parse v.pretty = .ok v.reread :=
  parse_of_reads (h.reads 0)

end TypedRoutes.Json
