import TypedRoutes.Json.Decoder
import TypedRoutes.Proofs.ReaderRuns
import Mathlib.Data.List.Forall2
import Mathlib.Data.List.Nodup

/-! # Data decoded from what it was encoded to

A decoder gives data back from the text of a value as well as from the value itself with its fields
in order.  A record comes back field by field.
-/

namespace TypedRoutes.Json

/-- A decoder gives some data from the text of a value, and from the value with the fields of its
objects in order. -/
structure Decodes {α : Type} (d : Decoder α) (v : Value) (a : α) : Prop where
  reads : ∀ depth, Reader.Reads d.read (v.prettyChars depth) a
  ofValue : d.ofValue v.sorted = .ok a

namespace Reader

theorem runs_requireToken {blanks : List Char} (h : ∀ c ∈ blanks, isBlank c = true) {c : Char}
    (hc : isBlank c = false) (rest : List Char) :
    Runs requireToken (blanks ++ c :: rest) c (c :: rest) :=
  (runs_peekToken h (by simpa using hc)).bind (Runs.pure c _)

theorem runs_requireToken_cons {c : Char} (hc : isBlank c = false) (rest : List Char) :
    Runs requireToken (c :: rest) c (c :: rest) :=
  runs_requireToken isBlank_of_mem_nil hc rest

theorem Reads.of_required {α : Type} {f : Char → Reader α} {c : Char} {cs : List Char} {a : α}
    (hc : startsValue c = true)
    (h : ∀ rest, Stops rest → Runs (f c) (c :: (cs ++ rest)) a rest) :
    Reads (requireToken >>= f) (c :: cs) a := by
  refine ⟨⟨c, cs, rfl, hc⟩, fun blanks rest hblanks hrest => ?_⟩
  simp only [startsValue, Bool.and_eq_true, Bool.not_eq_true', bne_iff_ne] at hc
  exact (runs_requireToken hblanks hc.1.1.1.1 _).bind (h rest hrest)

end Reader

namespace Decodes
open Reader
variable {α β : Type} {d : Decoder α} {v : Value} {a : α}

theorem map (h : Decodes d v a) (f : α → β) : Decodes (d.map f) v (f a) := by
  refine ⟨fun depth => ?_, ?_⟩
  · obtain ⟨hstarts, hruns⟩ := h.reads depth
    exact ⟨hstarts, fun blanks rest hblanks hrest => (hruns blanks rest hblanks hrest).map f⟩
  · exact congrArg (fun r => f <$> r) h.ofValue

theorem string (s : String) : Decodes .string (.string s) s := by
  refine ⟨fun depth => ?_, rfl⟩
  rw [Value.prettyChars, quoted_eq_cons]
  refine Reads.of_required (by decide) fun rest _ => (runs_skip '"' _).bind ?_
  rw [List.append_assoc]
  exact runs_stringRest s rest

theorem boolean (b : Bool) : Decodes .boolean (.bool b) b := by
  refine ⟨fun depth => ?_, rfl⟩
  cases b
  · exact Reads.of_required (by decide) fun rest _ =>
      (runs_skip 'f' _).bind ((runs_word "alse".toList rest).bind (Runs.pure false rest))
  · exact Reads.of_required (by decide) fun rest _ =>
      (runs_skip 't' _).bind ((runs_word "rue".toList rest).bind (Runs.pure true rest))

theorem optional_none (d : Decoder α) : Decodes (.optional d) .null none := by
  refine ⟨fun depth => Reads.of_token (by decide) fun rest _ => ?_, rfl⟩
  exact (runs_skip 'n' _).bind ((runs_word "ull".toList rest).bind (Runs.pure none rest))

/-- A value other than null, whose text begins otherwise. -/
theorem optional_some (h : Decodes d v a)
    (hnull : ∀ depth, (v.prettyChars depth).head? ≠ some 'n') :
    Decodes (.optional d) v (some a) := by
  refine ⟨fun depth => ?_, ?_⟩
  · obtain ⟨⟨c, cs, htext, hc⟩, hruns⟩ := h.reads depth
    have hmark : (some c == some 'n') = false := by
      have := hnull depth
      rw [htext] at this
      simpa using this
    rw [htext] at hruns ⊢
    refine Reads.of_token hc fun rest hrest => ?_
    simp only [hmark, Bool.false_eq_true, if_false]
    exact (hruns [] rest (by simp) hrest).bind (Runs.pure (some a) rest)
  · cases v with
    | null => exact absurd rfl (hnull 0)
    | _ => exact congrArg (fun r => some <$> r) h.ofValue

theorem option {encode : α → Value} (h : ∀ a, Decodes d (encode a) a)
    (hnull : ∀ a depth, ((encode a).prettyChars depth).head? ≠ some 'n') (o : Option α) :
    Decodes (.optional d) (match o with | some a => encode a | none => .null) o := by
  cases o with
  | none => exact optional_none d
  | some a => exact optional_some (h a) (hnull a)

theorem sortedItems_eq (vs : List Value) : Value.sortedItems vs = vs.map Value.sorted := by
  induction vs with
  | nil => rfl
  | cons v vs ih => rw [Value.sortedItems, ih, List.map_cons]

theorem mapM_ofValue {encode : α → Value} (h : ∀ a, Decodes d (encode a) a) (as : List α) :
    ((as.map encode).map Value.sorted).mapM d.ofValue = .ok as := by
  induction as with
  | nil => rfl
  | cons a as ih =>
    rw [List.map_cons, List.map_cons, List.mapM_cons, (h a).ofValue]
    exact congrArg (fun r => r >>= fun as' => .ok (a :: as')) ih

theorem list {encode : α → Value} (h : ∀ a, Decodes d (encode a) a) (as : List α) :
    Decodes (.list d) (.array (as.map encode)) as := by
  refine ⟨fun depth => ?_, ?_⟩
  · have hitems : List.Forall₂ (Reads d.read)
        ((as.map encode).map (Value.prettyChars (depth + 1))) as := by
      rw [List.map_map, List.forall₂_map_left_iff]
      exact List.forall₂_same.2 fun a _ => (h a).reads (depth + 1)
    rw [Value.prettyChars, prettyItems_eq, bracketed_eq]
    exact Reads.of_required (by decide) fun rest _ =>
      (runs_skip '[' _).bind (runs_items hitems depth rest)
  · change ((Value.sortedItems (as.map encode)).mapM d.ofValue) = _
    rw [sortedItems_eq]
    exact mapM_ofValue h as

theorem variant {choices : List (String × α)} {name : String} (h : choices.lookup name = some a) :
    Decodes (.variant choices) (.string name) a := by
  refine ⟨fun depth => ?_, ?_⟩
  · rw [Value.prettyChars, quoted_eq_cons]
    refine Reads.of_required (by decide) fun rest _ => ?_
    refine (runs_requireToken_cons (by decide) _).bind ((runs_skip '"' _).bind ?_)
    rw [List.append_assoc]
    refine (runs_stringRest name rest).bind ?_
    rw [h]
    exact Runs.pure a rest
  · change Decoder.lookupVariant choices name = _
    rw [Decoder.lookupVariant, h]

end Decodes

/-! ## Records -/

/-- A field of an object and what it changes in a record. -/
structure FieldValue (σ : Type) where
  key : String
  value : Value
  update : σ → σ

namespace FieldValue
variable {σ : Type}

def object (entries : List (FieldValue σ)) : Value :=
  .object (entries.map fun e => (e.key, e.value))

def result (record : σ) (entries : List (FieldValue σ)) : σ :=
  entries.foldl (fun r e => e.update r) record

def insert (e : FieldValue σ) : List (FieldValue σ) → List (FieldValue σ)
  | [] => [e]
  | f :: fs =>
    if e.key = f.key then e :: fs
    else if e.key < f.key then e :: f :: fs
    else f :: insert e fs

def sort (entries : List (FieldValue σ)) : List (FieldValue σ) :=
  entries.foldl (fun acc e => insert e acc) []

theorem mem_insert {e f : FieldValue σ} {fs : List (FieldValue σ)} (h : f ∈ insert e fs) :
    f = e ∨ f ∈ fs := by
  induction fs with
  | nil => simpa [insert] using h
  | cons g fs ih =>
    unfold insert at h
    split at h
    · exact (List.mem_cons.1 h).imp_right fun h => .tail _ h
    · split at h
      · exact List.mem_cons.1 h
      · obtain rfl | h := List.mem_cons.1 h
        · exact .inr (.head _)
        · exact (ih h).imp_right fun h => .tail _ h

theorem mem_foldl_insert {entries acc : List (FieldValue σ)} {f : FieldValue σ}
    (h : f ∈ entries.foldl (fun acc e => insert e acc) acc) : f ∈ entries ∨ f ∈ acc := by
  induction entries generalizing acc with
  | nil => exact .inr h
  | cons e entries ih =>
    obtain h | h := ih h
    · exact .inl (.tail _ h)
    · obtain rfl | h := mem_insert h
      · exact .inl (.head _)
      · exact .inr h

theorem mem_sort {entries : List (FieldValue σ)} {e : FieldValue σ} (h : e ∈ sort entries) :
    e ∈ entries :=
  (mem_foldl_insert h).resolve_right List.not_mem_nil

theorem map_insert (e : FieldValue σ) (fs : List (FieldValue σ)) :
    (insert e fs).map (fun e => (e.key, e.value.sorted)) =
      Value.insertField e.key e.value.sorted (fs.map fun e => (e.key, e.value.sorted)) := by
  induction fs with
  | nil => rfl
  | cons f fs ih =>
    unfold insert
    rw [List.map_cons, Value.insertField]
    split
    · rfl
    · split
      · rfl
      · rw [List.map_cons, ih]

theorem sortedFields_eq (fs : List (String × Value)) :
    Value.sortedFields fs = fs.map fun f => (f.1, f.2.sorted) := by
  induction fs with
  | nil => rfl
  | cons f fs ih => rw [Value.sortedFields, ih, List.map_cons]

theorem sorted_object (entries : List (FieldValue σ)) : (object entries).sorted =
    .object ((sort entries).map fun e => (e.key, e.value.sorted)) := by
  have hfold : ∀ acc : List (FieldValue σ), (entries.foldl (fun acc e => insert e acc) acc).map
        (fun e => (e.key, e.value.sorted)) =
      (entries.map fun e => (e.key, e.value.sorted)).foldl
        (fun acc f => Value.insertField f.1 f.2 acc)
        (acc.map fun e => (e.key, e.value.sorted)) := by
    induction entries with
    | nil => exact fun _ => rfl
    | cons e entries ih =>
      intro acc
      rw [List.foldl_cons, ih, map_insert]
      rfl
  rw [object, Value.sorted, sortedFields_eq, List.map_map, Value.ofFields]
  exact congrArg Value.object (hfold []).symm

end FieldValue

section Record
open Reader Decoder
variable {σ : Type} {fs : List (Decoder.Field σ)}

/-- A field of a record that decodes what an object has for it. -/
def Fits (f : Decoder.Field σ) (e : FieldValue σ) : Prop :=
  f.key = e.key ∧ Decodes f.update e.value e.update

theorem fits_field {α : Type} {key : String} {d : Decoder α} {v : Value} {a : α} (h : Decodes d v a)
    (set : α → σ → σ) : Fits (field key d set) ⟨key, v, set a⟩ := ⟨rfl, h.map set⟩

/-- Among the fields of a record one is found that decodes what an object has. -/
def Fills (fs : List (Decoder.Field σ)) (e : FieldValue σ) : Prop :=
  ∃ f, fs.find? (·.key == e.key) = some f ∧ Decodes f.update e.value e.update

theorem fills_of_fits {entries : List (FieldValue σ)} (h : List.Forall₂ Fits fs entries)
    (hdistinct : (entries.map (·.key)).Nodup) : ∀ e ∈ entries, Fills fs e := by
  induction h with
  | nil => exact fun _ he => nomatch he
  | @cons f e fs entries hfits _ ih =>
    obtain ⟨hkey, hdecodes⟩ := hfits
    obtain ⟨hfresh, hothers⟩ := List.nodup_cons.1 hdistinct
    intro e' he'
    obtain rfl | he' := List.mem_cons.1 he'
    · exact ⟨f, List.find?_cons_of_pos (by simpa using hkey), hdecodes⟩
    · obtain ⟨g, hg, hdecodes'⟩ := ih hothers e' he'
      refine ⟨g, ?_, hdecodes'⟩
      rw [List.find?_cons_of_neg, hg]
      intro heq
      have hsame : e.key = e'.key := by rw [← hkey, eq_of_beq heq]
      exact hfresh (List.mem_map.2 ⟨e', he', hsame.symm⟩)

theorem applyByKey_entries {entries : List (FieldValue σ)} (h : ∀ e ∈ entries, Fills fs e)
    (record : σ) :
    applyByKey fs record (entries.map fun e => (e.key, e.value.sorted)) =
      .ok (FieldValue.result record entries) := by
  induction entries generalizing record with
  | nil => rfl
  | cons e entries ih =>
    obtain ⟨f, hf, hdecodes⟩ := h e (.head _)
    rw [List.map_cons, applyByKey, hf]
    simp only [hdecodes.ofValue]
    exact ih (fun e he => h e (.tail _ he)) (e.update record)

theorem runs_readByKey_next {entries : List (FieldValue σ)} (h : ∀ e ∈ entries, Fills fs e)
    {seen : List String} (hdistinct : (entries.map (·.key) ++ seen).Nodup) (record : σ)
    (depth : Nat) (rest : List Char) {fuel : Nat} (hfuel : entries.length < fuel) :
    Runs (readByKey fs record seen false fuel)
      ((entries.map fun e => fieldText e.key (e.value.prettyChars (depth + 1))).flatMap
        (',' :: breakAt (depth + 1) ++ ·) ++ (breakAt depth ++ '\x7d' :: rest))
      (FieldValue.result record entries) rest := by
  induction entries generalizing record seen fuel with
  | nil =>
    obtain ⟨fuel, rfl⟩ := Nat.exists_eq_succ_of_ne_zero (Nat.ne_of_gt hfuel)
    refine (runs_hasField_end (isBlank_breakAt depth) false rest).bind ?_
    exact (runs_skip '\x7d' rest).bind (Runs.pure record rest)
  | cons e entries ih =>
    obtain ⟨fuel, rfl⟩ := Nat.exists_eq_succ_of_ne_zero (Nat.ne_of_gt (Nat.zero_lt_of_lt hfuel))
    obtain ⟨f, hf, hdecodes⟩ := h e (.head _)
    obtain ⟨hfresh, hothers⟩ := List.nodup_cons.1 hdistinct
    have hnew : seen.contains e.key = false := by
      simpa using fun hseen => hfresh (List.mem_append_right _ hseen)
    rw [List.map_cons, List.flatMap_cons]
    simp only [List.cons_append, List.append_assoc, fieldText_append]
    refine (runs_hasField_next (isBlank_breakAt (depth + 1)) _).bind ((runs_skip '"' _).bind ?_)
    refine (runs_stringRest e.key _).bind ?_
    simp only [hf, hnew, Bool.false_eq_true, if_false]
    refine (runs_colon _).bind ?_
    refine ((hdecodes.reads (depth + 1)).runs [' '] _ isBlank_of_mem_space
      (stops_afterValue _ depth _)).bind ?_
    refine ih (fun e he => h e (.tail _ he)) ?_ (e.update record) (by simpa using hfuel)
    exact List.nodup_middle.2 hdistinct

/-- The fields of a record whose text is laid out over lines. -/
theorem runs_readByKey {entries : List (FieldValue σ)} (h : ∀ e ∈ entries, Fills fs e)
    (hdistinct : (entries.map (·.key)).Nodup) (record : σ) (depth : Nat) (rest : List Char) :
    Runs (do readByKey fs record [] true ((← remaining) + 1))
      (afterOpening '\x7d' depth
        (entries.map fun e => fieldText e.key (e.value.prettyChars (depth + 1))) ++ rest)
      (FieldValue.result record entries) rest := by
  have hfuel : entries.length < (afterOpening '\x7d' depth
      (entries.map fun e => fieldText e.key (e.value.prettyChars (depth + 1))) ++ rest).length +
        1 := by
    have := length_le_afterOpening '\x7d' depth
      (entries.map fun e => fieldText e.key (e.value.prettyChars (depth + 1)))
    simp only [List.length_append, List.length_map] at this ⊢
    omega
  refine (runs_remaining _).bind ?_
  generalize (afterOpening '\x7d' depth (entries.map fun e =>
    fieldText e.key (e.value.prettyChars (depth + 1))) ++ rest).length = fuel at hfuel
  cases entries with
  | nil =>
    refine (runs_hasField_end isBlank_of_mem_nil true rest).bind ?_
    exact (runs_skip '\x7d' rest).bind (Runs.pure record rest)
  | cons e entries =>
    obtain ⟨f, hf, hdecodes⟩ := h e (.head _)
    simp only [List.map_cons, afterOpening, List.cons_append, List.append_assoc, List.nil_append,
      fieldText_append]
    refine (runs_hasField_first (isBlank_breakAt (depth + 1)) _).bind ((runs_skip '"' _).bind ?_)
    refine (runs_stringRest e.key _).bind ?_
    simp only [hf, List.contains_nil, Bool.false_eq_true, if_false]
    refine (runs_colon _).bind ?_
    refine ((hdecodes.reads (depth + 1)).runs [' '] _ isBlank_of_mem_space
      (stops_afterValue _ depth _)).bind ?_
    exact runs_readByKey_next (fun e he => h e (.tail _ he))
      (List.nodup_middle.2 (by simpa using hdistinct))
      (e.update record) depth rest (by simpa using hfuel)

/-- A record comes back if the changes of its fields amount to it, in either order. -/
theorem Decodes.record (name : String) (entries : List (FieldValue σ))
    (hfits : List.Forall₂ Fits fs entries) (hdistinct : (entries.map (·.key)).Nodup)
    {defaults result : σ} (hresult : FieldValue.result defaults entries = result)
    (hsorted : FieldValue.result defaults (FieldValue.sort entries) = result) :
    Decodes (.record name fs defaults) (FieldValue.object entries) result := by
  have h := fills_of_fits hfits hdistinct
  refine ⟨fun depth => ?_, ?_⟩
  · have htext : (FieldValue.object entries).prettyChars depth = '\x7b' :: afterOpening '\x7d' depth
        (entries.map fun e => fieldText e.key (e.value.prettyChars (depth + 1))) := by
      rw [FieldValue.object, Value.prettyChars, prettyFields_eq, bracketed_eq, List.map_map]
      rfl
    rw [htext]
    refine Reads.of_required (by decide) fun rest _ => (runs_skip '\x7b' _).bind ?_
    rw [← hresult]
    exact runs_readByKey h hdistinct defaults depth rest
  · rw [FieldValue.sorted_object, ← hsorted]
    exact applyByKey_entries (fun e he => h e (FieldValue.mem_sort he)) defaults

end Record

/-- Data decoded from a text that holds nothing else. -/
theorem Decodes.ofText {α : Type} {d : Decoder α} {v : Value} {a : α} (h : Decodes d v a) :
    d.ofText v.pretty = .ok a := by
  obtain ⟨s, hs⟩ := (h.reads 0).run_whole
  unfold Decoder.ofText Value.pretty
  rw [String.toList_ofList]
  exact congrArg (fun r => r >>= fun as => Except.ok as.1) hs

end TypedRoutes.Json
