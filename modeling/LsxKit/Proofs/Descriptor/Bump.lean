import LsxKit.Proofs.Descriptor.Sync
import LsxKit.Proofs.Version.Spelling

/-!
# Bumps of descriptors

A bump unpacks the version that is stored, adds one to a number and stores the packed result in
decimal digits. So the descriptor holds what the packed number holds: if the number that is bumped
was at its maximum, the stored version is the one with the carry and not the one that was returned.

* `Descriptor.packed?`: the packed version that is stored.
* `version_eq_ok_iff`: the version is the one that the packed number holds.
* `bump_eq_ok`: what a bump reads, returns and stores.
* `version_of_bump`: when the returned version is the stored one, and when the packed number grows.
-/

namespace LsxKit.Descriptor

/-- The packed version that a descriptor stores. -/
def packed? (d : Descriptor) : Option UInt64 :=
  (d.get? .version).bind fun value => Version.packed? (Text.trimBy Text.isBlank value.toList)

variable {d d' : Descriptor} {kind : VersionKind} {b v : Version} {value : String}

theorem require_eq_ok_iff {field : ModuleField} :
    d.require field = .ok value ↔ d.get? field = some value := by
  unfold Descriptor.require
  cases d.get? field <;> simp

/-- The version of a descriptor is the one that the stored number holds. -/
theorem version_eq_ok_iff : d.version = .ok v ↔ ∃ n, d.packed? = some n ∧ Version.unpack n = v := by
  unfold Descriptor.version packed?
  simp only [bind_eq_ok_iff, require_eq_ok_iff, Version.parsePacked_eq_ok_iff,
    Option.bind_eq_some_iff]
  constructor
  · rintro ⟨value, hvalue, n, hn, hv⟩
    exact ⟨n, ⟨value, hvalue, hn⟩, hv⟩
  · rintro ⟨n, ⟨value, hvalue, hn⟩, hv⟩
    exact ⟨value, hvalue, n, hn, hv⟩

/-- Writing the version stores the number that is written. -/
theorem packed?_set (h : d.set .version value = .ok d') :
    d'.packed? = Version.packed? (Text.trimBy Text.isBlank value.toList) := by
  obtain ⟨node, q, own, -, -, -, rfl⟩ := set_eq_ok h
  simp [packed?, Descriptor.get?, Entries.get?_insert]

/-- A bump reads the stored number, returns the bumped version and stores its packed number. -/
theorem bump_eq_ok (h : d.bump kind = .ok (d', b)) :
    ∃ n, d.packed? = some n ∧ b = (Version.unpack n).bump kind ∧ d'.packed? = some b.pack := by
  unfold Descriptor.bump at h
  obtain ⟨current, hversion, h⟩ := bind_eq_ok_iff.1 h
  obtain ⟨changed, hset, h⟩ := bind_eq_ok_iff.1 h
  obtain ⟨rfl, rfl⟩ := Prod.mk.inj (Except.ok.inj h)
  obtain ⟨n, hn, rfl⟩ := version_eq_ok_iff.1 hversion
  refine ⟨n, hn, rfl, ?_⟩
  rw [packed?_set hset, Version.toList_toString, Version.trimBy_digits, Version.packed?_digits]

/-- After a bump the version of a descriptor is the one that the packed number of the returned
version holds. It is the returned version itself exactly if the bumped number was below its maximum;
else the packed number carries into the next number. The packed number grows unless the bumped
number and all more significant ones were at their maxima. -/
theorem version_of_bump (h : d.bump kind = .ok (d', b)) :
    ∃ n, d.packed? = some n ∧ b = (Version.unpack n).bump kind ∧
      d'.packed? = some b.pack ∧ d'.version = .ok (Version.unpack b.pack) ∧
      b.pack.toNat = (n.toNat >>> kind.shift + 1) <<< kind.shift % UInt64.size ∧
      (d'.version = .ok b ↔ ((Version.unpack n).part kind).toNat + 1 < kind.limit) ∧
      (n < b.pack ↔
        ∃ j, kind.shift ≤ j.shift ∧ ((Version.unpack n).part j).toNat + 1 < j.limit) := by
  obtain ⟨n, hn, rfl, hstored⟩ := bump_eq_ok h
  have hfits := Version.fits_unpack n
  have hversion : d'.version = .ok (Version.unpack ((Version.unpack n).bump kind).pack) :=
    version_eq_ok_iff.2 ⟨_, hstored, rfl⟩
  have hpacked := Version.toNat_pack_bump hfits kind
  have hgrows := Version.pack_lt_pack_bump_iff hfits kind
  rw [Version.pack_unpack] at hpacked hgrows
  refine ⟨n, hn, rfl, hstored, hversion, hpacked, ?_, hgrows⟩
  rw [hversion, Except.ok.injEq, Version.unpack_pack_eq_self_iff, Version.fits_bump_iff hfits]

/-- The text of a descriptor with the given packed version. -/
def textWithVersion (packed : String) : String :=
  textWith ("<attribute id=\"Version64\" value=\"" ++ packed ++ "\"/>")

/-- A packed version with room for another build. -/
theorem version_of_bump_build :
    ∃ d d' b, Descriptor.parse (textWithVersion "36028797018963968") = .ok d ∧
      d.bump .build = .ok (d', b) ∧ d'.version = .ok b ∧ b = ⟨1, 0, 0, 1⟩ := by
  have hread : (Descriptor.parse (textWithVersion "36028797018963968")).toOption.bind (fun d =>
      (d.bump .build).toOption.map fun r => (d.packed?, r.2)) =
        some (some 36028797018963968, ⟨1, 0, 0, 1⟩) := by decide +kernel
  obtain ⟨d, hparse, hread⟩ := Option.bind_eq_some_iff.1 hread
  obtain ⟨⟨d', b⟩, hbump, hb⟩ := Option.map_eq_some_iff.1 hread
  obtain ⟨hpacked, rfl⟩ := Prod.mk.inj hb
  obtain ⟨n, hn, -, -, -, -, hversion, -⟩ := version_of_bump (ok_of_toOption hbump)
  obtain rfl : 36028797018963968 = n := Option.some.inj (hpacked.symm.trans hn)
  exact ⟨d, d', _, ok_of_toOption hparse, ok_of_toOption hbump, hversion.2 (by decide), rfl⟩

/-- At the greatest build the stored version is not the returned one, and at the greatest packed
version the packed number becomes zero. -/
theorem version_of_bump_greatest :
    (¬ ∀ text d, Descriptor.parse text = .ok d → ∀ edits kind d' b,
      (d.run edits).bump kind = .ok (d', b) → d'.version = .ok b) ∧
    ¬ ∀ text d, Descriptor.parse text = .ok d → ∀ edits kind d' b,
      (d.run edits).bump kind = .ok (d', b) →
        ∀ n, (d.run edits).packed? = some n → n < b.pack := by
  constructor
  · intro hall
    have hread : (Descriptor.parse (textWithVersion "2147483647")).toOption.bind (fun d =>
        ((d.run []).bump .build).toOption.map fun r => (r.1.version.toOption, r.2)) =
          some (some ⟨0, 0, 1, 0⟩, ⟨0, 0, 0, 2147483648⟩) := by decide +kernel
    obtain ⟨d, hparse, hread⟩ := Option.bind_eq_some_iff.1 hread
    obtain ⟨⟨d', b⟩, hbump, hb⟩ := Option.map_eq_some_iff.1 hread
    obtain ⟨hversion, rfl⟩ := Prod.mk.inj hb
    rw [hall _ d (ok_of_toOption hparse) [] .build d' _ (ok_of_toOption hbump)] at hversion
    exact absurd (Option.some.inj hversion) (by decide)
  · intro hall
    have hread : (Descriptor.parse (textWithVersion "18446744073709551615")).toOption.bind
        (fun d => ((d.run []).bump .major).toOption.map fun r =>
          ((d.run []).packed?, r.2.pack)) = some (some 18446744073709551615, 0) := by
      decide +kernel
    obtain ⟨d, hparse, hread⟩ := Option.bind_eq_some_iff.1 hread
    obtain ⟨⟨d', b⟩, hbump, hb⟩ := Option.map_eq_some_iff.1 hread
    obtain ⟨hpacked, hzero⟩ := Prod.mk.inj hb
    have hless := hall _ d (ok_of_toOption hparse) [] .major d' b (ok_of_toOption hbump) _ hpacked
    rw [show b.pack = 0 from hzero] at hless
    exact absurd hless (by decide)

end LsxKit.Descriptor
