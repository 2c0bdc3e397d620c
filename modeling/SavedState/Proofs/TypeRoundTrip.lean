import SavedState.Proofs.TypeRendering

/-!
Types and the texts that they are shown as.

A text tells all of a type but its supertypes, as long as the names in the type are made of
identifiers. Only such types are ever read, however their texts are spelled. So a type that has
been read is shown in one text of its own, from which it is read again.
-/

namespace SavedState.FieldType

instance (name : List Char) : Decidable (IsTypeName name) := decidable_of_iff _ isName_iff

/-- Whether the names of the type and of all its arguments are identifiers with dots between
them. -/
def IsNamed (t : FieldType) : Prop := ∀ e ∈ t.nodes 0, IsTypeName e.2.name.toList

instance (t : FieldType) : Decidable t.IsNamed :=
  inferInstanceAs (Decidable (∀ e ∈ t.nodes 0, _))

/-- Whether nothing is known of the supertypes of the type and of all its arguments. -/
def IsBare (t : FieldType) : Prop := ∀ e ∈ t.nodes 0, e.2.supertypes = .empty

instance (t : FieldType) : Decidable t.IsBare :=
  inferInstanceAs (Decidable (∀ e ∈ t.nodes 0, _))

/-! ### Nodes -/

mutual

lemma map_name_nodes (depth : Nat) : ∀ t : FieldType,
    (t.nodes depth).map (fun e => e.2.name) = t.mentions
  | ⟨name, arguments, dimensions, supertypes⟩ => by
    rw [nodes, List.map_cons, map_name_nodesAll (depth + 1) arguments, mentions]

lemma map_name_nodesAll (depth : Nat) : ∀ l : List FieldType,
    (nodesAll depth l).map (fun e => e.2.name) = mentionsAll l
  | [] => rfl
  | a :: as => by
    rw [nodesAll, List.map_append, map_name_nodes depth a, map_name_nodesAll depth as, mentionsAll]

end

mutual

lemma bare_eq_self_iff (depth : Nat) : ∀ t : FieldType,
    t.bare = t ↔ ∀ e ∈ t.nodes depth, e.2.supertypes = .empty
  | ⟨name, arguments, dimensions, supertypes⟩ => by
    rw [nodes, List.forall_mem_cons, ← bareAll_eq_self_iff (depth + 1) arguments, bare,
      FieldType.mk.injEq]
    exact ⟨fun h => ⟨h.2.2.2.symm, h.2.1⟩, fun h => ⟨rfl, h.2, rfl, h.1.symm⟩⟩

lemma bareAll_eq_self_iff (depth : Nat) : ∀ l : List FieldType,
    bareAll l = l ↔ ∀ e ∈ nodesAll depth l, e.2.supertypes = .empty
  | [] => iff_of_true rfl (List.forall_mem_nil _)
  | a :: as => by
    rw [nodesAll, List.forall_mem_append, ← bare_eq_self_iff depth a,
      ← bareAll_eq_self_iff depth as, bareAll, List.cons.injEq]

end

variable {t u : FieldType}

lemma isNamed_iff : t.IsNamed ↔ ∀ n ∈ t.mentions, IsTypeName n.toList := by
  rw [← map_name_nodes 0 t, List.forall_mem_map]
  rfl

lemma isBare_iff : t.IsBare ↔ t.bare = t := (bare_eq_self_iff 0 t).symm

/-! ### What has been read -/

/-- All names in a text are made of identifiers. -/
lemma Spells.isTypeName {ts : List Token} {s : List Char} (h : Spells ts s) :
    ∀ text, .name text ∈ ts → IsTypeName text := by
  induction h with
  | nil => exact fun text hm => absurd hm List.not_mem_nil
  | name hn _ _ _ ih =>
    intro text hm
    rcases List.mem_cons.1 hm with hm | hm
    · cases hm
      exact hn
    · exact ih text hm
  | mark _ _ _ ih =>
    intro text hm
    rcases List.mem_cons.1 hm with hm | hm
    · cases hm
    · exact ih text hm

lemma isTypeName_object : IsTypeName "java.lang.Object".toList := by decide +kernel

/-- Arguments have the same names however the brackets and commas around them are placed. -/
lemma name_mem_argumentTokens {text : List Char} {l : List WrittenArgument}
    (h : .name text ∈ moreTokens l) : .name text ∈ argumentTokens l := by
  cases l with
  | nil =>
    rw [moreTokens, List.mem_singleton] at h
    cases h
  | cons a as =>
    rw [moreTokens, List.mem_cons] at h
    rcases h with h | h
    · cases h
    · exact List.mem_cons_of_mem _ h

mutual

/-- The type that a tree means has its names from the tree, but for wildcards without a bound. -/
lemma mentions_erased (e : Written) (h : ∀ text, .name text ∈ e.tokens → IsTypeName text) :
    ∀ n ∈ e.erased.mentions, IsTypeName n.toList := by
  match e with
  | .type name arguments dimensions =>
    rw [Written.tokens] at h
    rw [Written.erased, mentions, List.forall_mem_cons, String.toList_ofList]
    refine ⟨h name List.mem_cons_self, mentionsAll_erasedAll arguments fun text hm => h text ?_⟩
    exact List.mem_cons_of_mem _ (List.mem_append_left _ (name_mem_argumentTokens hm))

lemma mentionsAll_erasedAll (l : List WrittenArgument)
    (h : ∀ text, .name text ∈ moreTokens l → IsTypeName text) :
    ∀ n ∈ mentionsAll (erasedAll l), IsTypeName n.toList := by
  match l with
  | [] => exact List.forall_mem_nil _
  | a :: as =>
    rw [moreTokens] at h
    rw [erasedAll, mentionsAll, List.forall_mem_append]
    refine ⟨mentions_erasedArgument a fun text hm => h text ?_,
      mentionsAll_erasedAll as fun text hm => h text ?_⟩
    · exact List.mem_cons_of_mem _ (List.mem_append_left _ hm)
    · exact List.mem_cons_of_mem _ (List.mem_append_right _ hm)

lemma mentions_erasedArgument (a : WrittenArgument)
    (h : ∀ text, .name text ∈ a.tokens → IsTypeName text) :
    ∀ n ∈ a.erased.mentions, IsTypeName n.toList := by
  match a with
  | .type t => exact mentions_erased t h
  | .upper bound =>
    refine mentions_erased bound fun text hm => h text ?_
    exact List.mem_cons_of_mem _ (List.mem_cons_of_mem _ hm)
  | .wildcard | .lower _ =>
    exact List.forall_mem_singleton.2 isTypeName_object

end

lemma isNamed_of_read {s : String} (h : read s = .ok t) : t.IsNamed := by
  obtain ⟨e, hs, rfl⟩ := (read_eq_ok_iff s t).1.1 h
  exact isNamed_iff.2 (mentions_erased e hs.isTypeName)

lemma read_render_of_isNamed (h : t.IsNamed) : read t.render = .ok t.bare :=
  read_render (isNamed_iff.1 h)

/-- Two types with one text differ at most in what is known of their supertypes. -/
lemma bare_eq_of_render_eq (ht : t.IsNamed) (hu : u.IsNamed) (h : t.render = u.render) :
    t.bare = u.bare := by
  have hread := read_render_of_isNamed ht
  rw [h, read_render_of_isNamed hu] at hread
  exact (Except.ok.inj hread).symm

/-- **Showing a type and reading it are inverse.** The text of a type whose names are made of
identifiers is read, and gives the type without its supertypes. Whatever is read is such a type
and knows of no supertypes, so it is read again from its own text, and two such types have one
text only if they are equal. -/
theorem render_read_inverse :
    (∀ t : FieldType, t.IsNamed → read t.render = .ok t.bare) ∧
    (∀ s t, read s = .ok t → t.IsNamed ∧ t.IsBare) ∧
    (∀ s t, read s = .ok t → read t.render = .ok t) ∧
    ∀ t u : FieldType, t.IsNamed → u.IsNamed → t.IsBare → u.IsBare →
      t.render = u.render → t = u := by
  refine ⟨fun t ht => read_render_of_isNamed ht, fun s t h => ?_, fun s t h => ?_,
    fun t u ht hu htb hub h => ?_⟩
  · exact ⟨isNamed_of_read h, isBare_iff.2 (bare_of_read h)⟩
  · have hread := read_render_of_isNamed (isNamed_of_read h)
    rwa [bare_of_read h] at hread
  · have hbare := bare_eq_of_render_eq ht hu h
    rwa [isBare_iff.1 htb, isBare_iff.1 hub] at hbare

/-- Something is known of a class deep in `t`. The text `s` is spelled otherwise than the text of
`t`, and is read as the same type without that. -/
theorem render_read_inverse_nested :
    let user : FieldType := ⟨"a.User", [], 0, .ofList ["android.os.Parcelable"]⟩
    let map (user : FieldType) : FieldType :=
      ⟨"java.util.Map", [⟨"a.Key", [], 1, .empty⟩, ⟨"java.util.List", [user], 0, .empty⟩], 2,
        .empty⟩
    let t := map user
    let u := map (.named "a.User")
    let s := "java.util.Map < a.Key[],? extends java.util.List<a.User> >[] [ ]"
    (t.IsNamed ∧ ¬t.IsBare ∧ read t.render = .ok t.bare) ∧
      (read s = .ok u ∧ u.IsNamed ∧ u.IsBare ∧ read u.render = .ok u) ∧
      t.bare.render = u.render ∧ t.bare = u := by
  intro user map t u s
  obtain ⟨hshown, hkind, hagain, hinj⟩ := render_read_inverse
  have ht : t.IsNamed := by decide +kernel
  have hread : read t.render = .ok t.bare := hshown t ht
  obtain ⟨hnamed, hbare⟩ := hkind _ _ hread
  have hs : read s = .ok u := by
    refine read_of_spells (e := .type "java.util.Map".toList [.type (.type "a.Key".toList [] 1),
      .upper (.type "java.util.List".toList [.type (.type "a.User".toList [] 0)] 0)] 2) ?_
    decide +kernel
  obtain ⟨hnamed', hbare'⟩ := hkind s u hs
  have htext : t.bare.render = u.render := by decide +kernel
  exact ⟨⟨ht, by decide +kernel, hread⟩, ⟨hs, hnamed', hbare', hagain s u hs⟩, htext,
    hinj t.bare u hnamed hnamed' hbare hbare' htext⟩

end SavedState.FieldType
