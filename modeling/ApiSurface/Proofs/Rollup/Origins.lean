import ApiSurface.Proofs.Rollup.DeclaredNames

/-!
# Where changes come from

What a revision does at an address that the walk comes to is done by the span there
itself, or by the declaration keyword after it if the span is a list.  Everything else is
done to members that the walk does not go into and to what goes with them.
-/

namespace ApiSurface.Rollup

open Emit

variable {context : Context} {entity : Entity} {outer declaration inner : Declaration}
  {root span child target : Span} {path place : Path} {index : Nat} {changes : Changes}
  {change : Path × Change} {trail : Trail}

/-! ## Effects at visited addresses -/

theorem trailTo_child (hchild : root.children[index]? = some child) :
    trailTo root [index] = ({} : Trail).step root index := by
  have hroot : root.descendant? [] = some root := rfl
  exact trailTo_concat hroot hchild

theorem Meets.address {member : Declaration} (hmeets : Meets context outer root path child)
    (made : change ∈ trimMember context (trailTo root path) child member) :
    change.1 = path ∨ GoesWithMember context outer root change.1 := by
  rw [trimMember_eq] at made
  rcases (mem_takeOut made).2 with haddress | ⟨comma, hcomma, hkind, haddress⟩
  · rw [haddress]
    rcases hmeets.taken_cases with hself | hgoes
    · exact .inl hself
    · exact .inr (.inl hgoes)
  · exact .inr (.inr ⟨path, child, comma, hmeets, hcomma, hkind, haddress.symm⟩)

theorem not_goesWithMember (hspan : root.descendant? path = some span)
    (hstatement : span.kind ≠ .variableStatement) (hcomma : span.kind ≠ .commaToken) :
    ¬ GoesWithMember context outer root path := by
  intro hgoes
  obtain ⟨found, hfound, hkind⟩ := hgoes.kind
  obtain rfl := Option.some.inj (hspan.symm.trans hfound)
  exact hkind.elim hstatement hcomma

/-- An effect at an address that the walk comes to is that of a span itself, unless the
address goes with a member. -/
theorem Effect.own_of_visited (hplace : Visits context outer root place inner span)
    (h : Effect context entity inner (trailTo root place) span change)
    (hvisits : Visits context outer root change.1 declaration target)
    (hstays : ¬ GoesWithMember context outer root change.1) :
    Own context entity inner (trailTo root place) span change := by
  cases h with
  | own made => exact made
  | trimmed opened stands declares found unkept made =>
      have hmeets := Meets.mk hplace opened stands declares found unkept
      rw [← trailTo_concat hplace.descendant? stands] at made
      rcases hmeets.address made with haddress | hgoes
      · rw [haddress] at hvisits
        simp [(hvisits.member_kept hplace opened stands declares found).1] at unkept
      · exact absurd hgoes hstays
  | stubbed opened stands declares found bodiless made =>
      obtain ⟨_, position, _, haddress⟩ := mem_stubChildren made
      rw [← trailTo_concat hplace.descendant? stands,
        path_trailTo (descendant?_concat hplace.descendant? stands)] at haddress
      rw [haddress, List.append_assoc] at hvisits
      simp [(hvisits.member_kept hplace opened stands declares found).2] at bodiless

theorem Own.address_trailTo (hspan : root.descendant? path = some span)
    (h : Own context entity inner (trailTo root path) span change) :
    change.1 = path ∨ ∃ parent index list, path = parent ++ [index + 1] ∧
      change.1 = parent ++ [index] ∧ root.descendant? change.1 = some list ∧
      list.kind = .syntaxList := by
  have hpath := path_trailTo hspan
  rcases h.address with haddress | ⟨list, hlist, hkind, haddress⟩
  · exact .inl (haddress.trans hpath)
  · obtain ⟨hfound, parent, index, rfl⟩ := previous_trailTo hspan hlist
    rw [hpath] at haddress
    rw [← haddress] at hfound
    rw [sibling_concat] at haddress
    cases index with
    | zero =>
        obtain ⟨above, habove, hchild⟩ := exists_parent hspan
        rw [trailTo_concat habove hchild] at hlist
        cases hlist
    | succ index => exact .inr ⟨parent, index, list, rfl, haddress, hfound, hkind⟩

/-! ## The revision of a span of a kind -/

theorem revise_comment (hkind : span.kind = .docComment) :
    revise context entity declaration trail span =
      .ok (if documentsPackage (span.node.text declaration.site.file.text)
        then [(trail.path, Change.skip)] else []) := by
  cases span with
  | mk node lead tail separator children =>
      have hkind : node.kind = .docComment := hkind
      simp only [revise, hkind]
      rfl

theorem revise_opened (opened : Opened span) :
    revise context entity declaration trail span = (do
      let own ← ownChanges context entity declaration trail span span.kind
      let inner ← gather (fun index previous next child =>
          childChanges context entity declaration (trail.child span index previous next) child)
        0 none span.children
      pure (own ++ inner)) := by
  cases span with
  | mk node lead tail separator children =>
      have hcomment : node.kind ≠ .docComment := opened.1
      have himport : node.kind ≠ .importType := opened.2
      rw [← reviseChildren_eq]
      have hsplit : revise context entity declaration trail
          (.mk node lead tail separator children) = (do
            let own ← ownChanges context entity declaration trail
              (.mk node lead tail separator children) node.kind
            let inner ← reviseChildren context entity declaration trail
              (.mk node lead tail separator children) 0 none children
            pure (own ++ inner)) := by
        simp only [revise]
        unfold ownChanges
        split_ifs <;> rfl
      exact hsplit

theorem revise_importType (hkind : span.kind = .importType) :
    revise context entity declaration trail span = (do
      let found ← context.surface.entityForNode span.node
      found.elim (pure []) fun imported => do
        let name ← Surface.writtenName imported
        let bounds ← argumentBounds declaration.site.file.text span
        let inner ← gather (fun index previous next child =>
            if (bounds.map fun bounds => decide (bounds.1 < index && index < bounds.2)).getD
                false then
              argumentChanges context entity declaration
                (trail.child span index previous next) child
            else pure [])
          0 none span.children
        let arguments ← argumentsText inner trail.path span bounds
        pure (inner ++ replaceWhole trail.path
          (importTypeText declaration.site.file.text imported name span.node arguments))) := by
  cases span with
  | mk node lead tail separator children =>
      have hkind : node.kind = .importType := hkind
      simp only [revise, hkind, reviseArguments_eq, Span.node, Span.children]
      cases context.surface.entityForNode node with
      | error fault => rfl
      | ok found => cases found <;> rfl

theorem ownChanges_of_leaf (opened : Opened span) (hleaf : span.children = [])
    (h : revise context entity declaration trail span = .ok changes) :
    ownChanges context entity declaration trail span span.kind = .ok changes := by
  rw [revise_opened opened, hleaf] at h
  simp only [bind_eq_ok, pure_eq_ok] at h
  obtain ⟨own, hown, _, hnone, rfl⟩ := h
  cases hnone
  rwa [List.append_nil]

end ApiSurface.Rollup
