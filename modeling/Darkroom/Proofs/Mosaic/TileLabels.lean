import Darkroom.Proofs.Mosaic.ChannelSplit
import Darkroom.Proofs.Mosaic.Rearrangement
import Mathlib.Data.List.NodupEquivFin

/-!
# Labels of a Tile

A pattern made of four labels has these labels, whatever they are and however often they come.

The labels are read one after the other, and each is looked up in what was collected so far. The
collection grows at its end only, so a label keeps its first place. Its last place moves when the
second green comes, and up to then only the first green had the place that is left behind. So the
first green has the channel of the first green that is collected, and every other label has the
last channel of its kind. This holds after each label and for any number of them, together with
how often a label is collected.

## Main definitions

* `MosaicPattern.mostChannels`: How many channels a label can have.
* `MosaicPattern.Describes`: What is collected, and the channels, for the labels that were read.

## Theorems

* `MosaicPattern.Describes.next`: One more label.
* `MosaicPattern.describes_foldl`: All labels.
* `MosaicPattern.Describes.label_eq`: The channel given to a label has this label.
* `MosaicPattern.Describes.channel_eq_iff`: When two places share a channel.
* `MosaicPattern.ofLabels_keeps_labels`: The pattern of four labels.
-/

namespace Darkroom

namespace MosaicPattern

/-! ### Places of a label -/

section

variable {c d : Char} {labels : List Char}

theorem idxOf_reverse_lt (h : c ∈ labels) : labels.reverse.idxOf c < labels.length := by
  rw [← List.length_reverse]
  exact List.idxOf_lt_length_iff.mpr (List.mem_reverse.mpr h)

theorem getElem?_lastIndex (h : c ∈ labels) : labels[lastIndex c labels]? = some c := by
  rw [lastIndex, ← List.getElem?_reverse (idxOf_reverse_lt h)]
  exact List.getElem?_idxOf (List.mem_reverse.mpr h)

theorem lastIndex_append_self : lastIndex c (labels ++ [c]) = labels.length := by
  simp [lastIndex]

theorem lastIndex_append_of_ne (hne : d ≠ c) (h : c ∈ labels) :
    lastIndex c (labels ++ [d]) = lastIndex c labels := by
  have hpos := List.length_pos_of_mem h
  rw [lastIndex, lastIndex, List.reverse_append, List.reverse_singleton, List.singleton_append,
    List.idxOf_cons_ne _ hne, List.length_append, List.length_singleton]
  omega

/-- The first place of a label stays when more labels come. -/
theorem eq_idxOf_append_iff {i : ℕ} (hi : i < labels.length) :
    i = (labels ++ [d]).idxOf c ↔ i = labels.idxOf c := by
  by_cases h : c ∈ labels
  · rw [List.idxOf_append_of_mem h]
  · rw [List.idxOf_append_of_notMem h, List.idxOf_of_notMem h]
    omega

theorem length_eq_idxOf_append_iff :
    labels.length = (labels ++ [d]).idxOf c ↔ c ∉ labels ∧ d = c := by
  by_cases h : c ∈ labels
  · have hlt := List.idxOf_lt_length_iff.mpr h
    rw [List.idxOf_append_of_mem h]
    exact iff_of_false (by omega) (fun hnew => hnew.1 h)
  · rw [List.idxOf_append_of_notMem h]
    by_cases hd : d = c
    · subst hd
      simp [h]
    · simp [h, hd, List.idxOf_cons_ne]

/-- The place after all labels has the label that comes last. -/
theorem eq_of_getElem?_append {i : ℕ} (hi : labels.length ≤ i) (h : (labels ++ [d])[i]? = some c) :
    i = labels.length ∧ c = d := by
  rw [List.getElem?_append_right hi] at h
  have hlt : i - labels.length < 1 := (List.getElem?_eq_some_iff.mp h).1
  have hzero : i - labels.length = 0 := by omega
  rw [hzero] at h
  exact ⟨by omega, (Option.some.inj h).symm⟩

/-- A label with two places comes twice. -/
theorem two_le_count {i j : ℕ} (hne : i ≠ j) (hi : labels[i]? = some c)
    (hj : labels[j]? = some c) : 2 ≤ labels.count c := by
  rcases List.getElem?_eq_some_iff.mp hi with ⟨hilt, rfl⟩
  rcases List.getElem?_eq_some_iff.mp hj with ⟨hjlt, hj⟩
  rw [← List.duplicate_iff_two_le_count, List.duplicate_iff_exists_distinct_get]
  rcases Nat.lt_or_gt_of_ne hne with hlt | hlt
  · exact ⟨⟨i, hilt⟩, ⟨j, hjlt⟩, hlt, rfl, hj.symm⟩
  · exact ⟨⟨j, hjlt⟩, ⟨i, hilt⟩, hlt, hj.symm, rfl⟩

/-- A label that comes twice has a first and a last place. -/
theorem idxOf_ne_lastIndex (h : 2 ≤ labels.count c) : labels.idxOf c ≠ lastIndex c labels := by
  have hmem : c ∈ labels := List.count_pos_iff.mp (by omega)
  rcases List.eq_append_cons_of_mem hmem with ⟨before, after, rfl, hbefore⟩
  -- The label comes again after its first place, so the last place is in what follows.
  have hafter : c ∈ after := by
    rw [List.count_append, List.count_eq_zero_of_not_mem hbefore, List.count_cons_self] at h
    exact List.count_pos_iff.mp (by omega)
  have hfirst : (before ++ c :: after).idxOf c = before.length := by
    rw [List.idxOf_append_of_notMem hbefore, List.idxOf_cons_self, Nat.add_zero]
  have hlt := idxOf_reverse_lt hafter
  have hlast : (before ++ c :: after).reverse.idxOf c = after.reverse.idxOf c := by
    rw [List.reverse_append, List.reverse_cons, List.append_assoc,
      List.idxOf_append_of_mem (List.mem_reverse.mpr hafter)]
  rw [hfirst, lastIndex, hlast, List.length_append, List.length_cons]
  omega

end

/-! ### The labels read -/

/-- How many channels a label can have: the second green has its own. -/
def mostChannels (label : Char) : ℕ := if label = 'G' then 2 else 1

/-- The channel of the label at a place: the first green keeps the first channel of its kind, and
    any other label has the last one. -/
def channelAt (letters labels : List Char) (i : ℕ) (label : Char) : ℕ :=
  if i = letters.idxOf 'G' then labels.idxOf 'G' else lastIndex label labels

/-- The place of the first green is not moved by what follows. -/
theorem channelAt_append {letters labels : List Char} {i : ℕ} {c d : Char}
    (hi : i < letters.length) :
    channelAt (letters ++ [d]) labels i c = channelAt letters labels i c := by
  simp only [channelAt, eq_idxOf_append_iff hi]

/-- What is collected, and the channels given out, for the labels read so far. -/
structure Describes (letters labels : List Char) (channels : List ℕ) : Prop where
  length_eq : channels.length = letters.length
  count_eq : ∀ c, labels.count c = min (letters.count c) (mostChannels c)
  channel : ∀ i c, letters[i]? = some c → channels[i]? = some (channelAt letters labels i c)

namespace Describes

variable {letters labels : List Char} {channels : List ℕ} (h : Describes letters labels channels)

include h

theorem mem_iff (c : Char) : c ∈ labels ↔ c ∈ letters := by
  have hmost : 1 ≤ mostChannels c := by
    unfold mostChannels
    split <;> omega
  have hcount := h.count_eq c
  rw [← List.count_pos_iff, ← List.count_pos_iff]
  omega

/-- A known label has all its channels, unless it is green and the second green is to come. -/
theorem count_eq_mostChannels_iff (c : Char) :
    labels.count c = mostChannels c ↔ c ∈ labels ∧ ¬(c = 'G' ∧ labels.count 'G' = 1) := by
  have hcount := h.count_eq c
  rw [← List.count_pos_iff]
  by_cases hgreen : c = 'G'
  · subst hgreen
    rw [mostChannels, if_pos rfl] at hcount ⊢
    simp only [true_and]
    omega
  · rw [mostChannels, if_neg hgreen] at hcount ⊢
    simp only [hgreen, false_and, not_false_eq_true, and_true]
    omega

/-- One more label keeps the description, when it keeps the channels given out so far. -/
theorem append {c : Char} {more : List Char} {k : ℕ}
    (hcount : ∀ d, more.count d = min ((letters ++ [c]).count d) (mostChannels d))
    (hbefore : ∀ i d, letters[i]? = some d →
      channelAt letters more i d = channelAt letters labels i d)
    (hlast : channelAt (letters ++ [c]) more letters.length c = k) :
    Describes (letters ++ [c]) more (channels ++ [k]) where
  length_eq := by rw [List.length_append, List.length_append, h.length_eq]; rfl
  count_eq := hcount
  channel i d hi := by
    have hlength := h.length_eq
    rcases Nat.lt_or_ge i letters.length with hlt | hge
    · rw [List.getElem?_append_left hlt] at hi
      rw [List.getElem?_append_left (by omega), h.channel i d hi, channelAt_append hlt,
        hbefore i d hi]
    · rcases eq_of_getElem?_append hge hi with ⟨rfl, rfl⟩
      rw [hlast, ← hlength, List.getElem?_concat_length]

/-- A label that has all its channels gets the last one. -/
theorem next_known {c : Char} (hknown : c ∈ labels) (hmost : labels.count c = mostChannels c) :
    Describes (letters ++ [c]) labels (channels ++ [lastIndex c labels]) := by
  refine h.append (fun d => ?_) (fun _ _ _ => rfl) ?_
  · have hcount := h.count_eq d
    rw [List.count_append, hcount]
    by_cases hd : d = c
    · subst hd
      omega
    · rw [List.count_singleton, if_neg (by simpa using Ne.symm hd), Nat.add_zero]
  · -- A label that is known is not the first green.
    have hnot : letters.length ≠ (letters ++ [c]).idxOf 'G' := fun hfirst => by
      rcases length_eq_idxOf_append_iff.mp hfirst with ⟨hnew, rfl⟩
      exact hnew ((h.mem_iff _).mp hknown)
    rw [channelAt, if_neg hnot]

/-- A new channel leaves the labels before at their channels: a last place moves for the second
    green only, and the green before it is the first one. -/
theorem channelAt_fresh {c d : Char} {i : ℕ} (hmost : labels.count c < mostChannels c)
    (hi : letters[i]? = some d) :
    channelAt letters (labels ++ [c]) i d = channelAt letters labels i d := by
  have hmem : d ∈ labels := (h.mem_iff d).mpr (List.mem_of_getElem? hi)
  unfold channelAt
  by_cases hfirst : i = letters.idxOf 'G'
  · rw [if_pos hfirst, if_pos hfirst, List.idxOf_append_of_mem]
    rw [h.mem_iff, ← List.idxOf_lt_length_iff, ← hfirst]
    exact (List.getElem?_eq_some_iff.mp hi).1
  · rw [if_neg hfirst, if_neg hfirst, lastIndex_append_of_ne _ hmem]
    rintro rfl
    have hgreen : c = 'G' := by
      by_contra hgreen
      rw [mostChannels, if_neg hgreen] at hmost
      exact absurd (List.count_pos_iff.mpr hmem) (by omega)
    subst hgreen
    have hcount := h.count_eq 'G'
    rw [mostChannels, if_pos rfl] at hcount hmost
    have htwice := two_le_count hfirst hi (List.getElem?_idxOf (List.mem_of_getElem? hi))
    omega

/-- A label that has not all its channels gets a new one. -/
theorem next_fresh {c : Char} (hmost : labels.count c < mostChannels c) :
    Describes (letters ++ [c]) (labels ++ [c]) (channels ++ [labels.length]) := by
  refine h.append (fun d => ?_) (fun i d hi => h.channelAt_fresh hmost hi) ?_
  · have hcount := h.count_eq d
    rw [List.count_append, List.count_append, List.count_singleton]
    by_cases hd : c = d
    · subst hd
      rw [if_pos (beq_self_eq_true c)]
      omega
    · rw [if_neg (by simpa using hd), Nat.add_zero, Nat.add_zero, hcount]
  · rw [channelAt]
    by_cases hfirst : letters.length = (letters ++ [c]).idxOf 'G'
    · rcases length_eq_idxOf_append_iff.mp hfirst with ⟨hnew, rfl⟩
      rw [if_pos hfirst, ← length_eq_idxOf_append_iff.mpr ⟨mt (h.mem_iff _).mp hnew, rfl⟩]
    · rw [if_neg hfirst, lastIndex_append_self]

/-- One more label. -/
theorem next (c : Char) :
    Describes (letters ++ [c]) (addLabel (labels, channels) c).1
      (addLabel (labels, channels) c).2 := by
  have hmost : labels.count c ≤ mostChannels c := by
    rw [h.count_eq]
    exact Nat.min_le_right _ _
  by_cases hall : labels.count c = mostChannels c
  · have hknown := (h.count_eq_mostChannels_iff c).mp hall
    have hadd : addLabel (labels, channels) c =
        (labels, channels ++ [lastIndex c labels]) := by simpa [addLabel] using hknown
    rw [hadd]
    exact h.next_known hknown.1 hall
  · have hnew := mt (h.count_eq_mostChannels_iff c).mpr hall
    have hadd : addLabel (labels, channels) c =
        (labels ++ [c], channels ++ [labels.length]) := by
      rw [addLabel, if_neg (by simpa using hnew)]
    rw [hadd]
    exact h.next_fresh (by omega)

/-- What stands at the first place of green is green. -/
theorem eq_green {i : ℕ} {c : Char} (hfirst : i = letters.idxOf 'G') (hi : letters[i]? = some c) :
    c = 'G' ∧ 'G' ∈ labels := by
  have hlt : letters.idxOf 'G' < letters.length := hfirst ▸ (List.getElem?_eq_some_iff.mp hi).1
  have hmem : 'G' ∈ letters := List.idxOf_lt_length_iff.mp hlt
  rw [hfirst, List.getElem?_idxOf hmem] at hi
  exact ⟨(Option.some.inj hi).symm, (h.mem_iff _).mpr hmem⟩

/-- The channel given to a label has this label. -/
theorem label_eq {i : ℕ} {c : Char} (hi : letters[i]? = some c) :
    labels[channelAt letters labels i c]? = some c := by
  unfold channelAt
  by_cases hfirst : i = letters.idxOf 'G'
  · rcases h.eq_green hfirst hi with ⟨rfl, hmem⟩
    rw [if_pos hfirst, List.getElem?_idxOf hmem]
  · rw [if_neg hfirst, getElem?_lastIndex ((h.mem_iff c).mpr (List.mem_of_getElem? hi))]

theorem getElem_lt {i : ℕ} (hi : i < channels.length) : channels[i] < labels.length := by
  have hletter := List.getElem?_eq_getElem (hi.trans_eq h.length_eq)
  rcases List.getElem?_eq_some_iff.mp (h.channel _ _ hletter) with ⟨_, heq⟩
  rw [heq]
  exact (List.getElem?_eq_some_iff.mp (h.label_eq hletter)).1

/-- Two places of one label share a channel, unless one of them is the first green. -/
theorem channel_eq_iff {i j : ℕ} {c : Char} (hne : i ≠ j) (hi : letters[i]? = some c)
    (hj : letters[j]? = some c) :
    channelAt letters labels i c = channelAt letters labels j c ↔
      ¬(c = 'G' ∧ (i = letters.idxOf 'G' ∨ j = letters.idxOf 'G')) := by
  have htwo (hgreen : c = 'G') : labels.idxOf 'G' ≠ lastIndex c labels := by
    subst hgreen
    have htwice := two_le_count hne hi hj
    refine idxOf_ne_lastIndex ?_
    rw [h.count_eq, mostChannels, if_pos rfl]
    omega
  unfold channelAt
  by_cases hfirst : i = letters.idxOf 'G'
  · have hgreen := (h.eq_green hfirst hi).1
    rw [if_pos hfirst, if_neg (fun hsecond => hne (hfirst.trans hsecond.symm))]
    exact iff_of_false (htwo hgreen) (fun hnot => hnot ⟨hgreen, Or.inl hfirst⟩)
  · rw [if_neg hfirst]
    by_cases hsecond : j = letters.idxOf 'G'
    · have hgreen := (h.eq_green hsecond hj).1
      rw [if_pos hsecond]
      exact iff_of_false (htwo hgreen).symm (fun hnot => hnot ⟨hgreen, Or.inr hsecond⟩)
    · rw [if_neg hsecond]
      exact iff_of_true rfl (fun hgreen => hgreen.2.elim hfirst hsecond)

end Describes

/-- All labels, one after the other. -/
theorem describes_foldl (letters : List Char) :
    Describes letters (letters.foldl addLabel ([], [])).1 (letters.foldl addLabel ([], [])).2 := by
  induction letters using List.reverseRecOn with
  | nil => exact ⟨rfl, fun c => by simp, fun i c hi => by simp at hi⟩
  | append_singleton letters c ih =>
    rw [List.foldl_append]
    exact ih.next c

/-! ### The pattern -/

theorem ofLabels_of_length_ne {text : String} (h : (upperCase text).length ≠ 4) :
    ofLabels text = .error (.tileLabels (quoted (upperCase text))) := by
  rw [ofLabels, String.length_toList, if_pos h, String.ofList_toList]

/-- Four labels make a pattern of two rows and two columns, with the channels given out. -/
theorem exists_of_length_eq {text : String} (h : (upperCase text).length = 4) :
    ∃ p, ofLabels text = .ok p ∧ p.rows = 2 ∧ p.cols = 2 ∧
      Describes (upperCase text).toList p.labels p.tile.toList := by
  have hseen := describes_foldl (upperCase text).toList
  rcases hfold : (upperCase text).toList.foldl addLabel ([], []) with ⟨labels, channels⟩
  rw [hfold] at hseen
  have hsize : channels.length = 2 * 2 := hseen.length_eq.trans h
  have hcells : (channels.map Int.ofNat).map Int.toNat = channels := by
    rw [List.map_map]
    exact List.map_id' channels
  have hsigned : ∀ k ∈ channels.map Int.ofNat, 0 ≤ k := fun k hk => by
    rcases List.mem_map.mp hk with ⟨n, -, rfl⟩
    exact Int.natCast_nonneg n
  have hinside : ∀ i (hi : i < channels.toArray.size), channels.toArray[i] < labels.length :=
    fun i hi => hseen.getElem_lt hi
  refine ⟨⟨labels, 2, 2, channels.toArray, Nat.two_pos, Nat.two_pos, hsize, hinside⟩, ?_, rfl, rfl,
    hseen⟩
  rw [ofLabels, String.length_toList, if_neg (not_not.mpr h), hfold]
  simp only [ofTile, hcells]
  rw [dif_pos ⟨Nat.two_pos, Nat.two_pos, hsize⟩, dif_pos ⟨hsigned, hinside⟩]

section

variable {p : MosaicPattern} {letters : List Char} (hrows : p.rows = 2) (hcols : p.cols = 2)
  (h : Describes letters p.labels p.tile.toList)

include hrows hcols h

/-- The places of the tile, row by row, have the channels given out. -/
theorem channel_of_describes {i : ℕ} (hlt : i < 4) {c : Char} (hi : letters[i]? = some c) :
    p.channel (i / 2 : ℕ) (i % 2 : ℕ) = channelAt letters p.labels i c := by
  have hplace : p.place (i / 2 : ℕ) (i % 2 : ℕ) = i := by
    rw [p.place_of_lt (by omega) (by omega), hcols]
    omega
  have hchannel := h.channel i c hi
  have htile := p.getElem?_tile (i / 2 : ℕ) (i % 2 : ℕ)
  rw [hplace, ← Array.getElem?_toList, hchannel] at htile
  exact (Option.some.inj htile).symm

theorem label_of_describes {i : ℕ} (hlt : i < 4) {c : Char} (hi : letters[i]? = some c) :
    p.label (i / 2 : ℕ) (i % 2 : ℕ) = c := by
  have hlabel := h.label_eq hi
  rw [← channel_of_describes hrows hcols h hlt hi] at hlabel
  exact (List.getElem?_eq_some_iff.mp hlabel).2

theorem tileLabels_of_describes (hfour : letters.length = 4) :
    p.tileLabels = String.ofList letters := by
  match letters, hfour, h with
  | [a, b, c, d], _, h =>
    have hlabel (i : ℕ) (hlt : i < 4) : p.label (i / 2 : ℕ) (i % 2 : ℕ) = [a, b, c, d][i] :=
      label_of_describes hrows hcols h hlt (List.getElem?_eq_getElem _)
    have hall : [p.label 0 0, p.label 0 1, p.label 1 0, p.label 1 1] = [a, b, c, d] := by
      simp only [List.cons.injEq, and_true]
      exact ⟨hlabel 0 (by decide), hlabel 1 (by decide), hlabel 2 (by decide), hlabel 3 (by decide)⟩
    rw [tileLabels, hall]

end

/-- Labels survive. A text is refused exactly when it does not have four characters in capitals.
    Else the tile has these labels in this order, every label has one channel and green has a
    second one when it comes again, and two places with one label share their channel unless one of
    them is the first green. -/
theorem ofLabels_keeps_labels (text : String) :
    ((∃ failure, ofLabels text = .error failure ∧ failure.kind = .badValue) ↔
      (upperCase text).length ≠ 4) ∧
    ((upperCase text).length = 4 → ∃ p, ofLabels text = .ok p ∧ p.rows = 2 ∧ p.cols = 2 ∧
      p.tileLabels = upperCase text ∧ (p.isRggb = true ↔ upperCase text = "RGGB") ∧
      (∀ label, p.labels.count label =
        min ((upperCase text).toList.count label) (if label = 'G' then 2 else 1)) ∧
      ∀ i < 4, ∀ j < 4, i ≠ j →
        p.label (i / 2 : ℕ) (i % 2 : ℕ) = p.label (j / 2 : ℕ) (j % 2 : ℕ) →
        let firstGreen := (upperCase text).toList.idxOf 'G'
        (p.channel (i / 2 : ℕ) (i % 2 : ℕ) = p.channel (j / 2 : ℕ) (j % 2 : ℕ) ↔
          ¬(p.label (i / 2 : ℕ) (i % 2 : ℕ) = 'G' ∧ (i = firstGreen ∨ j = firstGreen)))) := by
  refine ⟨⟨?_, fun hne => ⟨_, ofLabels_of_length_ne hne, rfl⟩⟩, fun hfour => ?_⟩
  · rintro ⟨failure, herror, -⟩ hfour
    rcases exists_of_length_eq hfour with ⟨p, hp, -⟩
    rw [hp] at herror
    cases herror
  · rcases exists_of_length_eq hfour with ⟨p, hp, hrows, hcols, h⟩
    have htile : p.tileLabels = upperCase text := by
      rw [tileLabels_of_describes hrows hcols h hfour, String.ofList_toList]
    refine ⟨p, hp, hrows, hcols, htile, ?_, h.count_eq, fun i hi j hj hne hsame => ?_⟩
    · simp [isRggb, hrows, hcols, htile]
    · have hletter {k : ℕ} (hk : k < 4) : (upperCase text).toList[k]? =
          some (p.label (k / 2 : ℕ) (k % 2 : ℕ)) := by
        have hk' := List.getElem?_eq_getElem (hk.trans_eq hfour.symm :
          k < (upperCase text).toList.length)
        rw [label_of_describes hrows hcols h hk hk', hk']
      have hj' := hletter hj
      rw [← hsame] at hj'
      rw [channel_of_describes hrows hcols h hi (hletter hi),
        channel_of_describes hrows hcols h hj hj']
      exact h.channel_eq_iff hne (hletter hi) hj'

/-- In `ßgg` the sharp s becomes two labels, which share a channel; the greens do not. -/
theorem ofLabels_keeps_sharp : (upperCase "ßgg").length = 4 ∧
    ∃ p, ofLabels "ßgg" = .ok p ∧ p.tileLabels = "SSGG" ∧ ¬(p.isRggb = true) ∧
      p.labels.count 'S' = 1 ∧ p.labels.count 'G' = 2 ∧ p.channel 0 0 = p.channel 0 1 ∧
      p.channel 1 0 ≠ p.channel 1 1 := by
  have hupper : upperCase "ßgg" = "SSGG" := by decide
  have hfour : (upperCase "ßgg").length = 4 := by rw [hupper]; rfl
  rcases (ofLabels_keeps_labels "ßgg").2 hfour with ⟨p, hp, -, -, htile, hrggb, hcount, hshared⟩
  rw [hupper] at htile hrggb hcount hshared
  have hlabels := htile
  rw [tileLabels, show "SSGG" = String.ofList ['S', 'S', 'G', 'G'] from rfl,
    String.ofList_inj] at hlabels
  simp only [List.cons.injEq, and_true] at hlabels
  rcases hlabels with ⟨h0, h1, h2, h3⟩
  have hsharp := hshared 0 (by decide) 1 (by decide) (by decide) (h0.trans h1.symm)
  have hgreen := hshared 2 (by decide) 3 (by decide) (by decide) (h2.trans h3.symm)
  refine ⟨hfour, p, hp, htile, mt hrggb.mp (by decide), hcount 'S', hcount 'G', ?_, ?_⟩
  · exact hsharp.mpr (fun h => absurd (h0.symm.trans h.1) (by decide))
  · exact fun h => hgreen.mp h ⟨h2, Or.inl rfl⟩

end MosaicPattern

end Darkroom
