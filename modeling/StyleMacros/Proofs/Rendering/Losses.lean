import StyleMacros.Proofs.Rendering.Overlap

/-!
# Whether generated text gets lost

An edit that begins inside a range already replaced is left out without a word. For a file
without errors this happens exactly where peers go inside what the removal of an attribute
takes; everywhere else every member and every peer stands in the output.
-/

set_option autoImplicit false

namespace StyleMacros

/-! ## Texts inside texts -/

theorem Text.infix_join {piece : Text} {pieces : List Text} (separator : Text)
    (member : piece ∈ pieces) : piece <:+: Text.join separator pieces := by
  obtain ⟨index, found⟩ := List.getElem?_of_mem member
  apply List.infix_of_mem_flatten
  apply List.mem_of_getElem?
  rw [List.getElem?_intersperse_two_mul, found]

theorem infix_stackedFragments {fragment : Fragment} {fragments : List Fragment} (lead : Text)
    (member : fragment ∈ fragments) :
    fragment.text.indentLines lead <:+: stackedFragments lead fragments :=
  Text.infix_join _ (List.mem_map_of_mem member)

theorem stackedFragments_infix_membersEdit (source : Text) (body : Span) (outer unit : Text)
    (members : List Fragment) :
    stackedFragments (outer ++ unit) members <:+:
      (membersEdit source body outer unit members).text := by
  simp only [membersEdit]
  split
  · exact ⟨['\n'], '\n' :: outer, by simp⟩
  · exact ⟨['\n', '\n'], '\n' :: outer, by simp⟩

theorem stackedFragments_infix_peersEdit (source : Text) (stop : Nat) (outer : Text)
    (peers : List Fragment) :
    stackedFragments outer peers <:+: (peersEdit source stop outer peers).text :=
  ⟨['\n', '\n'], [], by simp [peersEdit]⟩

/-! ## What is written -/

namespace FileExpansion

/-- No two edits meet, so none is left out, and every member and every peer of every site stands
in the output, each line indented as its place demands. -/
structure RendersAll (expansion : FileExpansion) (source : Text) (options : RenderOptions) :
    Prop where
  disjoint : Edit.Disjoint (expansion.edits source options.unit)
  applied : Edit.applied (expansion.edits source options.unit) =
    Edit.sort (expansion.edits source options.unit)
  written : ∃ output, expansion.render source options = some output ∧
    ∀ site ∈ expansion.sites,
      (∀ member ∈ site.members, member.text.indentLines
        (source.lineIndent site.span.start ++ options.unit) <:+: output) ∧
      ∀ peer ∈ site.peers, peer.text.indentLines (source.lineIndent site.span.start) <:+: output

variable {expansion : FileExpansion} {source : Text} {options : RenderOptions}

theorem text_infix_of_applied {output : Text} {edit : Edit}
    (success : expansion.render source options = some output)
    (applied : Edit.applied (expansion.edits source options.unit) =
      Edit.sort (expansion.edits source options.unit))
    (member : edit ∈ expansion.edits source options.unit) : edit.text <:+: output := by
  unfold render at success
  split at success
  · cases success
  · cases Option.some.inj success
    have kept : edit ∈ Edit.applied (expansion.edits source options.unit) :=
      applied ▸ Edit.mem_sort.mpr member
    exact (Edit.text_infix_applyFrom kept).trans (List.suffix_append _ _).isInfix

theorem Placed.rendersAll_of_disjoint (placed : expansion.Placed source)
    (sound : expansion.hasErrors = false)
    (declares : ∀ site ∈ expansion.sites, ∃ declaration, site.declaration = some declaration)
    (disjoint : Edit.Disjoint (expansion.edits source options.unit)) :
    expansion.RendersAll source options := by
  have applied := (Edit.applied_eq_sort_iff_disjoint fun edit member =>
    (placed.edit_fits member).2.2).mpr disjoint
  have success : expansion.render source options = some (options.lead ++
      Edit.apply (expansion.edits source options.unit) source) := by
    unfold render
    rw [sound]
    rfl
  refine ⟨disjoint, applied, _, success, ?_⟩
  intro site siteMember
  obtain ⟨declaration, declared⟩ := declares site siteMember
  obtain ⟨written, spanExact, encloses⟩ :=
    (placed.sites site siteMember).declaration declaration declared
  -- every insertion of the site is applied, so that whatever stands in its text is written
  have insertion : ∀ {edit : Edit}, edit ∈ site.insertions source options.unit → edit.text <:+: _ :=
    fun inside => text_infix_of_applied success applied
      (List.mem_flatMap.mpr ⟨site, siteMember, List.mem_append_right _ inside⟩)
  constructor
  · intro member listed
    have inserted := insertion ((SiteExpansion.mem_insertions_iff declared).mpr
      (.inl ⟨written.body, encloses.body, List.ne_nil_of_mem listed, rfl⟩))
    exact (infix_stackedFragments _ listed).trans
      ((stackedFragments_infix_membersEdit ..).trans inserted)
  · intro peer listed
    have inserted := insertion ((SiteExpansion.mem_insertions_iff declared).mpr
      (.inr ⟨List.ne_nil_of_mem listed, rfl⟩))
    exact (infix_stackedFragments _ listed).trans
      ((stackedFragments_infix_peersEdit ..).trans inserted)

theorem exists_declaration_of_hasErrors_eq_false {source : SourceText}
    {settings : ExpansionSettings} (sound : (ofSource source settings).hasErrors = false)
    {site : SiteExpansion} (member : site ∈ (ofSource source settings).sites) :
    ∃ declaration, site.declaration = some declaration := by
  obtain ⟨written, inside, rfl⟩ := List.mem_map.mp member
  apply Site.exists_declaration_of_isOk
  have fine := List.any_eq_false.mp sound _ member
  simpa using fine

end FileExpansion

/-- Rendering a file without errors loses nothing exactly if no peers go inside what the removal
of an attribute takes: then no two edits meet, whatever the layout of the sites is. -/
theorem rendering_loses_nothing_iff_peers_clear (source : SourceText)
    (settings : ExpansionSettings) (options : RenderOptions)
    (sound : (FileExpansion.ofSource source settings).hasErrors = false) :
    (FileExpansion.ofSource source settings).RendersAll source.content options ↔
      (FileExpansion.ofSource source settings).PeersClear source.content := by
  have placed := FileExpansion.ofSource_placed source settings
  rw [← placed.disjoint_iff_peersClear options.unit]
  constructor
  · exact FileExpansion.RendersAll.disjoint
  · exact placed.rendersAll_of_disjoint sound fun site =>
      FileExpansion.exists_declaration_of_hasErrors_eq_false sound

def trailingCommentBeforeSite : SourceText :=
  ⟨"Views.swift", "@Style(subViews: []) protocol A \x7b\x7d // A\n@UIComponent struct B \x7b\x7d"⟩

theorem rendering_loses_nothing_behind_a_trailing_comment :
    (FileExpansion.ofSource trailingCommentBeforeSite {}).hasErrors = false ∧
      (FileExpansion.ofSource trailingCommentBeforeSite {}).RendersAll
        trailingCommentBeforeSite.content {} := by
  have sound : (FileExpansion.ofSource trailingCommentBeforeSite {}).hasErrors = false := by
    decide +kernel
  have clear : (FileExpansion.ofSource trailingCommentBeforeSite {}).PeersClear
      trailingCommentBeforeSite.content := by
    unfold FileExpansion.PeersClear SiteExpansion.PeersClearOf
    decide +kernel
  exact ⟨sound,
    (rendering_loses_nothing_iff_peers_clear trailingCommentBeforeSite {} {} sound).mpr clear⟩

/-- What starts and ends like a comment behind the protocol ends inside the second attribute. -/
def commentIntoAttribute : SourceText :=
  ⟨"Views.swift",
    "@Style(subViews: []) protocol A \x7b\x7d /**/ @UIComponent(/**/\n) struct B \x7b\x7d\n"⟩

theorem rendering_loses_peers_inside_an_attribute :
    (FileExpansion.ofSource commentIntoAttribute {}).hasErrors = false ∧
      ¬ (FileExpansion.ofSource commentIntoAttribute {}).RendersAll
        commentIntoAttribute.content {} := by
  have lost : ∀ output ∈ (FileExpansion.ofSource commentIntoAttribute {}).render
        commentIntoAttribute.content {},
      ∃ site ∈ (FileExpansion.ofSource commentIntoAttribute {}).sites, ∃ peer ∈ site.peers,
        ¬ peer.text.indentLines
          (commentIntoAttribute.content.lineIndent site.span.start) <:+: output := by
    decide +kernel
  refine ⟨by decide +kernel, ?_⟩
  rintro ⟨_, _, output, success, written⟩
  obtain ⟨site, siteMember, peer, peerMember, missing⟩ := lost output success
  exact missing ((written site siteMember).2 peer peerMember)

end StyleMacros
