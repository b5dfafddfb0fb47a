import KeetaNode.Account

/-!
# Values of the primitives

The primitives of `Crypto` at the points where the sample blocks and votes of this
development use them: digests, keys and signatures are tabulated, base 32 is decoded.
The instance is scoped; opening `KeetaNode.Reference` makes the model executable on
the samples.
-/

namespace KeetaNode.Reference

open ByteCodec

/-! ## Numbers for byte strings -/

/-- The low octets of a number, high octet first. -/
def octets : (length : Nat) → (number : Nat) → Bytes
  | 0, _ => []
  | length + 1, number => UInt8.ofNat (number / 256 ^ length) :: octets length number

theorem length_octets (length number : Nat) : (octets length number).length = length := by
  induction length with
  | zero => rfl
  | succ length ih => simp [octets, ih]

/-- The number of a byte string, with a leading one so that leading zeros count. -/
def numberOf (bytes : Bytes) : Nat := bytes.foldl (fun number octet => 256 * number + octet.toNat) 1

/-- One number from groups of forty octets. -/
def join (groups : List Nat) : Nat := groups.foldl (fun number group => 256 ^ 40 * number + group) 0

/-! ## Tables -/

/-- The public keys of the first two test vectors of Ed25519. -/
def aliceKey : Bytes :=
  octets 32 0xd75a980182b10ab7d54bfed3c964073a0ee172f3daa62325af021a68f707511a

def bobKey : Bytes :=
  octets 32 0x3d4017c3e843895a92b70aa74d1b7ebc9c982ccf2ec4968cc0cd55f12af4660c

/-- The numbers of messages with those of their SHA3-256 digests. -/
def digests : List (Nat × Nat) :=
  [ -- typed keys
   (0x101d75a980182b10ab7d54bfed3c964073a0ee172f3daa62325af021a68f707511a,
    0x442e8fc33e3582260e9b48f80e9397ce5f6677516dc04056d8b914f82cab4cb3),
   (0x1013d4017c3e843895a92b70aa74d1b7ebc9c982ccf2ec4968cc0cd55f12af4660c,
    0xec9c5cd6dce923adfbc16df2a8e783fac4d4d38864ccd6c91ab0d2255d931958),
   (0x1071111111111111111111111111111111111111111111111111111111111111111,
    0x8f35df23fcf7f2fb6c89c630ad739cbf55fdca3ebb8227a1fe966989e4e548d9),
   (0x1072222222222222222222222222222222222222222222222222222222222222222,
    0x5d58acd92ba94a088d2610ac4b7901824efced56edbc9ac4430cc6dcd8ded9da),
   (0x1043333333333333333333333333333333333333333333333333333333333333333,
    0x58046bfbe87a613acde2ec50fc06162cef9febb83ac31dc2cd3b1e0d997e6fb1),
   -- a certificate
   (0x13003020105,
    0x8fc2f01cb0728efa690524042a9bb46d457b1582847384db2605199240c1f256),
   -- unsigned blocks and a block hash
   (join [
      0x1a18201813082017d020100020101040201021813323032353031303230,
      0x33303430352e3530305a020100042101d75a980182b10ab7d54bfed3c964073a0ee172f3daa62325,
      0xaf021a68f707511a3081b60421071111111111111111111111111111111111111111111111111111,
      0x111111111111308190042101d75a980182b10ab7d54bfed3c964073a0ee172f3daa62325af021a68,
      0xf707511a306b04210722222222222222222222222222222222222222222222222222222222222222,
      0x2230460421013d4017c3e843895a92b70aa74d1b7ebc9c982ccf2ec4968cc0cd55f12af4660c0421,
      0x01d75a980182b10ab7d54bfed3c964073a0ee172f3daa62325af021a68f707511a04200707070707,
      0x070707070707070707070707070707070707070707070707070707305ba330302e0421013d4017c3,
      0xe843895a92b70aa74d1b7ebc9c982ccf2ec4968cc0cd55f12af4660c0201023006020109020100a8,
      0x27302502010104208fc2f01cb0728efa690524042a9bb46d457b1582847384db2605199240c1f256],
    0x0570ce0ef5cd7e59c6deefdc707c47ea924e5503754ac981aeff8ee7b786e67c),
   (join [
      0x1a18201353082013102010002010104020102181332303235303130323033303430,
      0x352e3530305a020100042101d75a980182b10ab7d54bfed3c964073a0ee172f3daa62325af021a68,
      0xf707511a306b04210711111111111111111111111111111111111111111111111111111111111111,
      0x113046042101d75a980182b10ab7d54bfed3c964073a0ee172f3daa62325af021a68f707511a0421,
      0x04333333333333333333333333333333333333333333333333333333333333333304200707070707,
      0x070707070707070707070707070707070707070707070707070707305ba330302e0421013d4017c3,
      0xe843895a92b70aa74d1b7ebc9c982ccf2ec4968cc0cd55f12af4660c0201023006020109020100a8,
      0x27302502010104208fc2f01cb0728efa690524042a9bb46d457b1582847384db2605199240c1f256],
    0x9ce8ee47d5ac11a83103bebf49c708d58b91badb7a78aa67622497966abb773a),
   (0x10570ce0ef5cd7e59c6deefdc707c47ea924e5503754ac981aeff8ee7b786e67c,
    0xcdfe84177dbd8dcb558a42ca8c634abdcb1005351af9be2c1218d8ffafb0a4d8),
   -- an empty key
   (0x104,
    0x989216075a288af2c12f115557518d248f93c434965513f5f739df8c9d6e1932),
   (0x1,
    0xa7ffc6f8bf1ed76651c14756a061d662f580ff4de43b49fa82d80a4b80f8434a),
   (0x104a7ffc6f8bf1ed76651c14756a061d662f580ff4de43b49fa82d80a4b80f8434a,
    0x9e92befce051a51eb374d97bb798faf63d465d5492b2701cda172a23d69d09c5),
   -- votes
   (join [
      0x13082015d3082010fa003020102020111300506032b6570304e314c304a06035504,
      0x030c436b656574615f61686c7676676162716b7971766e36766a70376e68736c656134356135796c,
      0x7336706e6b6d697a667634626275326878613569727572626f7237627434302a1813323032353031,
      0x30323033303430352e3530305a181332303235303130323033303430352e3530305a300d310b3009,
      0x06035504050c023131302a300506032b6570032100d75a980182b10ab7d54bfed3c964073a0ee172,
      0xf3daa62325af021a68f707511aa3473045304306096086480165030301030101ff0433a031302f06,
      0x09608648016503040208302204200570ce0ef5cd7e59c6deefdc707c47ea924e5503754ac981aeff,
      0x8ee7b786e67c300506032b6570034100d2bd4f5ed74c1dcfafe3568de24bf5cd442eac73fe54cdb0,
      0xc0a82774aec7be8d89cbbe10f8cc4b4aa5fdef7631a662c67558c008dbff4b5921d5e81eea45aa0f],
    0xf3b647191d76f0d0c89ae789a4ca3cb885fc77751fe737764d6c24ab4a3b4383),
   (join [
      0x13082015d3082010fa003020102020111300506032b6570304e314c304a06035504,
      0x030c436b656574615f616536756166366435626279737775737734666b6f7469337032366a7a6762,
      0x6d7a34786d6a66756d796467766c346a6b367274617a3365346c746c6e79302a1813323032353031,
      0x30323033303430352e3530305a181332303235303130323033303430352e3530305a300d310b3009,
      0x06035504050c023131302a300506032b65700321003d4017c3e843895a92b70aa74d1b7ebc9c982c,
      0xcf2ec4968cc0cd55f12af4660ca3473045304306096086480165030301030101ff0433a031302f06,
      0x09608648016503040208302204200570ce0ef5cd7e59c6deefdc707c47ea924e5503754ac981aeff,
      0x8ee7b786e67c300506032b65700341006772553ffba19c376cafb41f76dd5821f2688f0dbbd404b0,
      0x0f3e426e4beeb18bdbb29c33f5b67df6554c1d4f2ad5eca641a230a9d2032b29c5aba35374378d0d],
    0x085ce2c4ebe448cdb401678af530290a4e75c23671e75f6b4730912e2cfbf028),
   (join [
      0x13082017f30820131a003020102020111300506032b6570304e314c,
      0x304a06035504030c436b656574615f61686c7676676162716b7971766e36766a70376e68736c6561,
      0x34356135796c7336706e6b6d697a667634626275326878613569727572626f7237627434302a1813,
      0x32303235303130323033303430352e3530305a181332303235303130323033303430352e3530305a,
      0x300d310b300906035504050c023131302a300506032b6570032100d75a980182b10ab7d54bfed3c9,
      0x64073a0ee172f3daa62325af021a68f707511aa3693067306506096086480165030301030101ff04,
      0x55a05330510609608648016503040208304404200570ce0ef5cd7e59c6deefdc707c47ea924e5503,
      0x754ac981aeff8ee7b786e67c04200570ce0ef5cd7e59c6deefdc707c47ea924e5503754ac981aeff,
      0x8ee7b786e67c300506032b6570034100ba39bb3d9d649ecaad0f92851b48889d5203ee423fd1f58a,
      0x614b8f6cf2b35d79b2a6091c14d81650846a15649009af6e6954f13ce1244dbfbb90c61696bf3d06],
    0x7575aa876b4b28c1eeee17861f4e00dbaf78038d88296eef46d68334a3cd96aa),
   -- certificates
   (join [
      0x13081d930818ca003020102020101300506032b65,
      0x70300c310a30080603550403160142301e170d3235303130313030303030305a170d323531323331,
      0x3233353935395a300c310a30080603550403160141302a300506032b6570032100d75a980182b10a,
      0xb7d54bfed3c964073a0ee172f3daa62325af021a68f707511aa3133011300f0603551d130101ff04,
      0x0530030101ff300506032b6570034100f9cf8df236ab2d45482d18d9bf5fcbee4753d4bbd9fea476,
      0x32c948bb5f067d4215392f51660098248b51ecd144ea908bd172d7a4cea60a2da8be9b417feea300],
    0xdb6380a9a089cef7779b1a0cb3e3e080939ea5e444a78978de9a575a77dc0e40),
   (join [
      0x13081d930818ca003020102020102300506032b65,
      0x70300c310a30080603550403160141301e170d3235303130313030303030305a170d323531323331,
      0x3233353935395a300c310a30080603550403160142302a300506032b65700321003d4017c3e84389,
      0x5a92b70aa74d1b7ebc9c982ccf2ec4968cc0cd55f12af4660ca3133011300f0603551d130101ff04,
      0x0530030101ff300506032b65700341001246a67682a4c4cf0854fc1e9dbb7bc92c47cf9f743b268f,
      0x6e28fa5ad4d1d4542248edd4d074b111a49f227cd93cce7d29094dfa2b7121d69f87544bdd51c102],
    0x37a72ebc1806358945e4bf7a8233d064864412c9b334e1613488c620e57e0140),
   (join [
      0x13081c33077a003020102020103300506032b6570300c310a30080603550403160141301e170d,
      0x3235303130313030303030305a170d3235313233313233353935395a300c310a3008060355040316,
      0x0153302a300506032b65700321003d4017c3e843895a92b70aa74d1b7ebc9c982ccf2ec4968cc0cd,
      0x55f12af4660c300506032b6570034100d3d9edd07d619174d71fb62d89fed56b6accfa5726b3bb21,
      0x93a309e973600553c52fb4a298181cd6dd725b5a6d7d8645dec26b12a8a56807294d73e119a06902],
    0xade830510f786af8f09105b19aeec53f6d7bad2248cff0aa422a3605e6d94027),
   -- a token
   (0x1034444444444444444444444444444444444444444444444444444444444444444,
    0xec90e1b2a908d375d96f4d6a9aba67c532c213c64239d7ccc3f9c60ecb1c813a),
   (0x14444444444444444444444444444444444444444444444444444444444444444,
    0xd4d68bcf4ff59146c85996ae8597282dd02eae0efd8553263f4c2c4d1106430a),
   -- a key
   (0x1d75a980182b10ab7d54bfed3c964073a0ee172f3daa62325af021a68f707511a,
    0x054f341a2fa584bb0c540fbf5232fcef6f76c5d5eb6a0663bacf8ccccf0d092b),
   -- unsigned blocks of one transaction and their hashes
   (join [
      0x1a1819230818f020100181332303235303130323033303430352e353030,
      0x5a020100042103444444444444444444444444444444444444444444444444444444444444444404,
      0x2101d75a980182b10ab7d54bfed3c964073a0ee172f3daa62325af021a68f707511a0420d4d68bcf,
      0x4ff59146c85996ae8597282dd02eae0efd8553263f4c2c4d1106430a300aa5083006020105020100],
    0xed4673f506fe512e625b16b85a1598e94aff154c20c71e09337373f326a28e52),
   (0x1ed4673f506fe512e625b16b85a1598e94aff154c20c71e09337373f326a28e52,
    0x6519babb706c4e6ac6424a3f8a8d401199a9ace5396ab73f2e73945172a412be),
   (join [
      0x1a1819230818f020100181332303235303130323033303430352e353030,
      0x5a020100042103444444444444444444444444444444444444444444444444444444444444444404,
      0x2101d75a980182b10ab7d54bfed3c964073a0ee172f3daa62325af021a68f707511a0420ed4673f5,
      0x06fe512e625b16b85a1598e94aff154c20c71e09337373f326a28e52300aa5083006020105020100],
    0xe70dc552ad66db4fdd3a57810bfa0b0d76f2bc78610b58d0ab5b28e352058885),
   (0x1e70dc552ad66db4fdd3a57810bfa0b0d76f2bc78610b58d0ab5b28e352058885,
    0x21aedb7ab0592821cff130a9e345a08cbd98392c801726ef5ab6b54b3aecf48e),
   (join [
      0x1a18194308191020100181332303235303130323033303430352e3530305a02,
      0x0100042101d75a980182b10ab7d54bfed3c964073a0ee172f3daa62325af021a68f707511a050004,
      0x20054f341a2fa584bb0c540fbf5232fcef6f76c5d5eb6a0663bacf8ccccf0d092b302da62b302904,
      0x21034444444444444444444444444444444444444444444444444444444444444444020105020100],
    0x9a5ff98eb486b1c12d37cd0a26ace25d4b834e77a09a8a8fc8392e38cbf34195),
   (0x19a5ff98eb486b1c12d37cd0a26ace25d4b834e77a09a8a8fc8392e38cbf34195,
    0xaefd489705079bebcfc8d03923c66552ae8c96010518585f07e27a7795cc4910),
   (join [
      0x1a1818e30818b02010018133230323530313032303330343035,
      0x2e3530305a020100042101d75a980182b10ab7d54bfed3c964073a0ee172f3daa62325af021a68f7,
      0x07511a05000420054f341a2fa584bb0c540fbf5232fcef6f76c5d5eb6a0663bacf8ccccf0d092b30,
      0x27a12530230421013d4017c3e843895a92b70aa74d1b7ebc9c982ccf2ec4968cc0cd55f12af4660c],
    0x7bdf141e077f5f84dd56e66abeaa9253bfcfe85a71267890b05225d21d8cda36),
   (0x17bdf141e077f5f84dd56e66abeaa9253bfcfe85a71267890b05225d21d8cda36,
    0x8bc5dc8eb3b794c13f5edcffc54ca5946ca9ee8e75102e191b41b1975bb9e26a),
   (join [
      0x1a18194308191020100181332303235303130323033303430352e3530305a02,
      0x0100042101d75a980182b10ab7d54bfed3c964073a0ee172f3daa62325af021a68f707511a050004,
      0x207bdf141e077f5f84dd56e66abeaa9253bfcfe85a71267890b05225d21d8cda36302da62b302904,
      0x21034444444444444444444444444444444444444444444444444444444444444444020105020100],
    0x90ea5635b981418e73140b01a03f5b89f0adea0270d8ae5f4391bb6b3073abeb),
   (0x190ea5635b981418e73140b01a03f5b89f0adea0270d8ae5f4391bb6b3073abeb,
    0x4ebd83e8acc82071ef0175a405e0d56373bac6cc499d8c01c69fa94b89f62910),
   -- a seed and the identifiers derived from it
   (join [
      0x101d75a980182b10ab7d54bfed3c964073a0ee172f3daa62325,
      0xaf021a68f707511a054f341a2fa584bb0c540fbf5232fcef6f76c5d5eb6a0663bacf8ccccf0d092b],
    0x5c7623302c50460e30ea1428aebff19dd8f1de737ab71b3c8da91d9a4aaae5ac),
   (0x15c7623302c50460e30ea1428aebff19dd8f1de737ab71b3c8da91d9a4aaae5ac00000000,
    0x7bfe10c17d94ee50ee7c2aa34ee5b66670c0161d99cbb2c01e74cc186ef6abaf),
   (0x15c7623302c50460e30ea1428aebff19dd8f1de737ab71b3c8da91d9a4aaae5ac00000001,
    0x6a9139ed0833d8f059ec1053e6a4557dd9508ce8a75c99ce626b419977e92a79),
   -- the tokens themselves
   (0x1037bfe10c17d94ee50ee7c2aa34ee5b66670c0161d99cbb2c01e74cc186ef6abaf,
    0xb237696c80139843a4291b5e5d581aecf4d061319769ec7a10933c1bdaebe1af),
   (0x1036a9139ed0833d8f059ec1053e6a4557dd9508ce8a75c99ce626b419977e92a79,
    0xebf9f63fa766313b6e35d0372ba23e1014f8117a2a6b7da57321c3a7f54f228c),
   -- another key
   (0x13d4017c3e843895a92b70aa74d1b7ebc9c982ccf2ec4968cc0cd55f12af4660c,
    0xb4f403514003c9ce67e0c3552e21ebfde117f88a550a03f1a387bfb495c0a35d),
   -- unsigned blocks of a swap and their hashes
   (join [
      0x1a182010630820102020100181332303235303130323033303430,
      0x352e3530305a020100042101d75a980182b10ab7d54bfed3c964073a0ee172f3daa62325af021a68,
      0xf707511a05000420054f341a2fa584bb0c540fbf5232fcef6f76c5d5eb6a0663bacf8ccccf0d092b,
      0x30819da04b30490421013d4017c3e843895a92b70aa74d1b7ebc9c982ccf2ec4968cc0cd55f12af4,
      0x660c0201030421034444444444444444444444444444444444444444444444444444444444444444,
      0xa74e304c020105042103555555555555555555555555555555555555555555555555555555555555,
      0x55550421013d4017c3e843895a92b70aa74d1b7ebc9c982ccf2ec4968cc0cd55f12af4660c0101ff],
    0xe4aafa296254f84239bbf1dd59392d80fa56265d15742faeefcb9d57ae91efc8),
   (0x1e4aafa296254f84239bbf1dd59392d80fa56265d15742faeefcb9d57ae91efc8,
    0x53c98275349647b96553aaf9e86b0167927d8f5fa3099476d83699f72508e728),
   (join [
      0x1a18201573082015302010018133230323530313032303330343035,
      0x2e3530305a020100042101d75a980182b10ab7d54bfed3c964073a0ee172f3daa62325af021a68f7,
      0x07511a05000420054f341a2fa584bb0c540fbf5232fcef6f76c5d5eb6a0663bacf8ccccf0d092b30,
      0x81eea04b30490421013d4017c3e843895a92b70aa74d1b7ebc9c982ccf2ec4968cc0cd55f12af466,
      0x0c0201030421034444444444444444444444444444444444444444444444444444444444444444a7,
      0x4f304d020203e8042103555555555555555555555555555555555555555555555555555555555555,
      0x55550421013d4017c3e843895a92b70aa74d1b7ebc9c982ccf2ec4968cc0cd55f12af4660c010100,
      0xa74e304c020105042103555555555555555555555555555555555555555555555555555555555555,
      0x55550421013d4017c3e843895a92b70aa74d1b7ebc9c982ccf2ec4968cc0cd55f12af4660c0101ff],
    0x0d4cb40b0f81e92da1d39d4afdb3e405719212e09b2b599ded4aa4940633c599),
   (0x10d4cb40b0f81e92da1d39d4afdb3e405719212e09b2b599ded4aa4940633c599,
    0x3e0990bada13f7e048c4c713495b2bc5698db15448d96d77f7f0d8d25d44f9ee),
   (join [
      0x1a181b43081b10201001813323032353031303230333034,
      0x30352e3530305a0201000421013d4017c3e843895a92b70aa74d1b7ebc9c982ccf2ec4968cc0cd55,
      0xf12af4660c05000420b4f403514003c9ce67e0c3552e21ebfde117f88a550a03f1a387bfb495c0a3,
      0x5d304da04b3049042101d75a980182b10ab7d54bfed3c964073a0ee172f3daa62325af021a68f707,
      0x511a0201050421035555555555555555555555555555555555555555555555555555555555555555],
    0x539f73e204cec1b65e6d571c42e6c46003325772d33742d9410943636914b45e),
   (0x1539f73e204cec1b65e6d571c42e6c46003325772d33742d9410943636914b45e,
    0x5c732a961a7e9401bfb88a3c205f84aab8a947aed39177ff4ca1b7958f2a9fb0),
   -- permanent votes for the sample block
   (join [
      0x13082015d3082010fa003020102020111300506032b6570304e314c304a06035504,
      0x030c436b656574615f61686c7676676162716b7971766e36766a70376e68736c656134356135796c,
      0x7336706e6b6d697a667634626275326878613569727572626f7237627434302a1813323032353031,
      0x30323033303430352e3530305a181332323235303130323033303430352e3530305a300d310b3009,
      0x06035504050c023131302a300506032b6570032100d75a980182b10ab7d54bfed3c964073a0ee172,
      0xf3daa62325af021a68f707511aa3473045304306096086480165030301030101ff0433a031302f06,
      0x09608648016503040208302204200570ce0ef5cd7e59c6deefdc707c47ea924e5503754ac981aeff,
      0x8ee7b786e67c300506032b6570034100396f4ba49be2ec43069775941b9ea85505d07191d3b32865,
      0x674db295ace3bfdefcd98443f9d92b4b3ba503f03c1668d93115ac829bba046163158f8d7fdc020f],
    0x19f900d39db4fbdf94d70a0eaa980ee529e73dda74d74b7a709d39667170b100),
   (join [
      0x13082015d3082010fa003020102020111300506032b6570304e314c304a06035504,
      0x030c436b656574615f616536756166366435626279737775737734666b6f7469337032366a7a6762,
      0x6d7a34786d6a66756d796467766c346a6b367274617a3365346c746c6e79302a1813323032353031,
      0x30323033303430352e3530305a181332323235303130323033303430352e3530305a300d310b3009,
      0x06035504050c023131302a300506032b65700321003d4017c3e843895a92b70aa74d1b7ebc9c982c,
      0xcf2ec4968cc0cd55f12af4660ca3473045304306096086480165030301030101ff0433a031302f06,
      0x09608648016503040208302204200570ce0ef5cd7e59c6deefdc707c47ea924e5503754ac981aeff,
      0x8ee7b786e67c300506032b6570034100552d915162ec9e95979d19790a5abefb66e7855703394738,
      0xac714778e725a5d56dddf059212694dd3be395bbf52fc01be43d4a1948401e7c5559b9428f721a04],
    0xb0fa46406e5bd2183a72f4d0db862ff4ab747b323532a55ad4e9822b36f530c0)]

/-- Keys and the numbers of messages with the Ed25519 signatures over them. -/
def signatures : List (Bytes × Nat × Nat) :=
  [(aliceKey, 0x1cdfe84177dbd8dcb558a42ca8c634abdcb1005351af9be2c1218d8ffafb0a4d8,
    join [
      0x11d44911694ef3b8042503f82f61cb269a1e8652c12e73a2e,
      0x6c3a52e2cecc119ba2eaa8c40ee987b8c145cbb3c59ff7c70029075da8d8434f0b33c07ba061ea02]),
   (bobKey, 0x1cdfe84177dbd8dcb558a42ca8c634abdcb1005351af9be2c1218d8ffafb0a4d8,
    join [
      0x100e7edec341a0ded9d45d89045ab5d7b015a48a62cefed53,
      0xce7f410b4a6c056b85f2615bb0b857fccdd7b0432129e4f2b16e95e999af0150fffa6d6dc4b72309]),
   (aliceKey, join [
      0x13082010fa003020102020111300506032b6570304e314c304a06035504030c436b6565,
      0x74615f61686c7676676162716b7971766e36766a70376e68736c656134356135796c7336706e6b6d,
      0x697a667634626275326878613569727572626f7237627434302a1813323032353031303230333034,
      0x30352e3530305a181332303235303130323033303430352e3530305a300d310b300906035504050c,
      0x023131302a300506032b6570032100d75a980182b10ab7d54bfed3c964073a0ee172f3daa62325af,
      0x021a68f707511aa3473045304306096086480165030301030101ff0433a031302f06096086480165,
      0x03040208302204200570ce0ef5cd7e59c6deefdc707c47ea924e5503754ac981aeff8ee7b786e67c],
    join [
      0x1d2bd4f5ed74c1dcfafe3568de24bf5cd442eac73fe54cdb0,
      0xc0a82774aec7be8d89cbbe10f8cc4b4aa5fdef7631a662c67558c008dbff4b5921d5e81eea45aa0f]),
   (bobKey, join [
      0x13082010fa003020102020111300506032b6570304e314c304a06035504030c436b6565,
      0x74615f616536756166366435626279737775737734666b6f7469337032366a7a67626d7a34786d6a,
      0x66756d796467766c346a6b367274617a3365346c746c6e79302a1813323032353031303230333034,
      0x30352e3530305a181332303235303130323033303430352e3530305a300d310b300906035504050c,
      0x023131302a300506032b65700321003d4017c3e843895a92b70aa74d1b7ebc9c982ccf2ec4968cc0,
      0xcd55f12af4660ca3473045304306096086480165030301030101ff0433a031302f06096086480165,
      0x03040208302204200570ce0ef5cd7e59c6deefdc707c47ea924e5503754ac981aeff8ee7b786e67c],
    join [
      0x16772553ffba19c376cafb41f76dd5821f2688f0dbbd404b0,
      0x0f3e426e4beeb18bdbb29c33f5b67df6554c1d4f2ad5eca641a230a9d2032b29c5aba35374378d0d]),
   (aliceKey, join [
      0x130820129a003020102020111300506032b6570304e,
      0x314c304a06035504030c436b656574615f61686c7676676162716b7971766e36766a70376e68736c,
      0x656134356135796c7336706e6b6d697a667634626275326878613569727572626f7237627434302a,
      0x181332303235303130323033303430352e3530305a181332303235303130323033303430352e3530,
      0x305a300d310b300906035504050c023131302a300506032b6570032100d75a980182b10ab7d54bfe,
      0xd3c964073a0ee172f3daa62325af021a68f707511aa361305f304306096086480165030301030101,
      0xff0433a031302f0609608648016503040208302204200570ce0ef5cd7e59c6deefdc707c47ea924e,
      0x5503754ac981aeff8ee7b786e67c3018060b2b0601040183e9530001000101ff0406a004a0023000],
    join [
      0x1afa2dd8b9368bfbbbe3c28632227a44c43309146228a0f5f,
      0x60e27e00cb92e5a761e574105047259f3c5c5e4c1e948584a6c29988f87acdbd506b9fead8466302]),
   (aliceKey, join [
      0x1,
      0x3081eda003020102020111300506032b6570304e314c304a06035504030c436b656574615f61686c,
      0x7676676162716b7971766e36766a70376e68736c656134356135796c7336706e6b6d697a66763462,
      0x6275326878613569727572626f7237627434302a181332303235303130323033303430352e353030,
      0x5a181332303235303130323033303430352e3530305a300d310b300906035504050c023131302a30,
      0x0506032b6570032100d75a980182b10ab7d54bfed3c964073a0ee172f3daa62325af021a68f70751,
      0x1aa3253023302106096086480165030301030101ff0411a00f300d06096086480165030402083000],
    join [
      0x13be4c0516a10b0358ac6db60f8ecb0bddde1b4a033cde8c2,
      0xe86ea5a2e0a19e40ef56bcaf572b17e79da50dbe4e37988e4d570b7e2abfdc7f8717541c0c698e06]),
   (aliceKey, join [
      0x130820131a003020102020111300506032b6570304e314c304a06035504,
      0x030c436b656574615f61686c7676676162716b7971766e36766a70376e68736c656134356135796c,
      0x7336706e6b6d697a667634626275326878613569727572626f7237627434302a1813323032353031,
      0x30323033303430352e3530305a181332303235303130323033303430352e3530305a300d310b3009,
      0x06035504050c023131302a300506032b6570032100d75a980182b10ab7d54bfed3c964073a0ee172,
      0xf3daa62325af021a68f707511aa3693067306506096086480165030301030101ff0455a053305106,
      0x09608648016503040208304404200570ce0ef5cd7e59c6deefdc707c47ea924e5503754ac981aeff,
      0x8ee7b786e67c04200570ce0ef5cd7e59c6deefdc707c47ea924e5503754ac981aeff8ee7b786e67c],
    join [
      0x1ba39bb3d9d649ecaad0f92851b48889d5203ee423fd1f58a,
      0x614b8f6cf2b35d79b2a6091c14d81650846a15649009af6e6954f13ce1244dbfbb90c61696bf3d06]),
   (bobKey, join [
      0x130818ca003020102020101300506032b6570300c310a30,
      0x080603550403160142301e170d3235303130313030303030305a170d323531323331323335393539,
      0x5a300c310a30080603550403160141302a300506032b6570032100d75a980182b10ab7d54bfed3c9,
      0x64073a0ee172f3daa62325af021a68f707511aa3133011300f0603551d130101ff040530030101ff],
    join [
      0x1f9cf8df236ab2d45482d18d9bf5fcbee4753d4bbd9fea476,
      0x32c948bb5f067d4215392f51660098248b51ecd144ea908bd172d7a4cea60a2da8be9b417feea300]),
   (aliceKey, join [
      0x130818ca003020102020102300506032b6570300c310a30,
      0x080603550403160141301e170d3235303130313030303030305a170d323531323331323335393539,
      0x5a300c310a30080603550403160142302a300506032b65700321003d4017c3e843895a92b70aa74d,
      0x1b7ebc9c982ccf2ec4968cc0cd55f12af4660ca3133011300f0603551d130101ff040530030101ff],
    join [
      0x11246a67682a4c4cf0854fc1e9dbb7bc92c47cf9f743b268f,
      0x6e28fa5ad4d1d4542248edd4d074b111a49f227cd93cce7d29094dfa2b7121d69f87544bdd51c102]),
   (aliceKey, join [
      0x130,
      0x77a003020102020103300506032b6570300c310a30080603550403160141301e170d323530313031,
      0x3030303030305a170d3235313233313233353935395a300c310a30080603550403160153302a3005,
      0x06032b65700321003d4017c3e843895a92b70aa74d1b7ebc9c982ccf2ec4968cc0cd55f12af4660c],
    join [
      0x1d3d9edd07d619174d71fb62d89fed56b6accfa5726b3bb21,
      0x93a309e973600553c52fb4a298181cd6dd725b5a6d7d8645dec26b12a8a56807294d73e119a06902]),
   (aliceKey, join [
      0x130,
      0x77a003020102020105300506032b6570300c310a30080603550403160152301e170d323530313031,
      0x3030303030305a170d3235313233313233353935395a300c310a3008060355040316014d302a3005,
      0x06032b65700321003d4017c3e843895a92b70aa74d1b7ebc9c982ccf2ec4968cc0cd55f12af4660c],
    join [
      0x10de6b4ff0b5a6692488ebd98e944b3115a65c20ab201f8d6,
      0x681ab3028b71190acee5be5af451b320e430da375c6079d8d1381e95b47113777bfa6b0e01a6aa0f]),
   (bobKey, join [
      0x130,
      0x77a003020102020106300506032b6570300c310a3008060355040316014d301e170d323530313031,
      0x3030303030305a170d3235313233313233353935395a300c310a30080603550403160145302a3005,
      0x06032b6570032100d75a980182b10ab7d54bfed3c964073a0ee172f3daa62325af021a68f707511a],
    join [
      0x1173dc8763576f715140837234ce4c8a318d1bcb9e26851d3,
      0x9c7c6fd528ad21f810d1fb7263e3cc844c3c3c7099ffb93215b917ba39f4e3997cd6ae0711626a05]),
   (aliceKey, 0x16519babb706c4e6ac6424a3f8a8d401199a9ace5396ab73f2e73945172a412be,
    join [
      0x184ffbbb6ea0417f250dda1a8c126f085d771c1058cec7c6b,
      0x231f835dba8395d19d6ebad56ead7ced1444db39d72e13a26b1d787e427c6e6c9e0abae2b3a1cb07]),
   (aliceKey, 0x121aedb7ab0592821cff130a9e345a08cbd98392c801726ef5ab6b54b3aecf48e,
    join [
      0x1160c28f36aa13367651a0c73aae44652cd9a548092500aed,
      0x99598b0fbd44885ebddcdf4f2680746b47bc379d0d42949633c99edcaa933376e277b5fbf8304502]),
   (aliceKey, 0x1aefd489705079bebcfc8d03923c66552ae8c96010518585f07e27a7795cc4910,
    join [
      0x14789f8773cd2d70fd0afcade3ad62ede39a5c60b53bcd96b,
      0x0b20f44f9a668117346df71273a1d066e10501e62adfbd0d790cf6e4c9f727f99c0078123c6e500d]),
   (aliceKey, 0x18bc5dc8eb3b794c13f5edcffc54ca5946ca9ee8e75102e191b41b1975bb9e26a,
    join [
      0x154e063eb059cfb167d25b8d024da314f0b8bd8ca8ee5498f,
      0x8ff099a1d00f5a57a2742aaab244354bf7d63cac498124348dd5dab1a813f5ba72fea4cd0a21b80b]),
   (aliceKey, 0x14ebd83e8acc82071ef0175a405e0d56373bac6cc499d8c01c69fa94b89f62910,
    join [
      0x197d0f61443f3e2895e3061afb53834cec52d55cb5e4a20fc,
      0x6863db51d8c3168b76b2334dbee34a48989e21d05ca62e86e797a7e25a6a17dff7720f8f8044d80e]),
   (aliceKey, join [
      0x13082012da003020102020111300506032b6570304e314c304a,
      0x06035504030c436b656574615f61686c7676676162716b7971766e36766a70376e68736c65613435,
      0x6135796c7336706e6b6d697a667634626275326878613569727572626f7237627434302a18133230,
      0x3235303130323033303430352e3530305a181332303235303130323033303430352e3530305a300d,
      0x310b300906035504050c023131302a300506032b6570032100d75a980182b10ab7d54bfed3c96407,
      0x3a0ee172f3daa62325af021a68f707511aa3653063304306096086480165030301030101ff0433a0,
      0x31302f0609608648016503040208302204200570ce0ef5cd7e59c6deefdc707c47ea924e5503754a,
      0xc981aeff8ee7b786e67c301c060b2b0601040183e9530001000101ff040aa0083006010100020105],
    join [
      0x1676da7965660fe8b8bed35cb943e174d5572615434fb865d,
      0x54c2d65f95f6e34b866bedca13c9b922f8fe3a8a1db8f3179b7e08e7b5f977a68bca267e713acd07]),
   (aliceKey, 0x153c98275349647b96553aaf9e86b0167927d8f5fa3099476d83699f72508e728,
    join [
      0x1c7468c310e7f1d4af2e3666ece2ce7e8d8a0f69aa7f9399b,
      0x84dc19a8c3b4444f55004d7b0c10187647d5d5cbb7a5957f4fe6e8a0bd601eae9b858a21d2ea990b]),
   (aliceKey, 0x13e0990bada13f7e048c4c713495b2bc5698db15448d96d77f7f0d8d25d44f9ee,
    join [
      0x1498a4d4e671b217cd60b9329a458f5aed0dead46c256d3b4,
      0x863927e5b03532a767ffbaf8388d2f04f355d25d1740d487b22178f2bb59cf413f1c2cb56cc9880b]),
   (bobKey, 0x15c732a961a7e9401bfb88a3c205f84aab8a947aed39177ff4ca1b7958f2a9fb0,
    join [
      0x18859b00d98b878d8bee2b14788d3aad923829ce2ffd0ccd5,
      0x6325dbc0d38dfe421bfb4c36a2e5140009aeff29322f27e2151adc79667951ab84eb8de825e1fc06]),
   (aliceKey, join [
      0x13082010fa003020102020111300506032b6570304e314c304a06035504030c436b6565,
      0x74615f61686c7676676162716b7971766e36766a70376e68736c656134356135796c7336706e6b6d,
      0x697a667634626275326878613569727572626f7237627434302a1813323032353031303230333034,
      0x30352e3530305a181332323235303130323033303430352e3530305a300d310b300906035504050c,
      0x023131302a300506032b6570032100d75a980182b10ab7d54bfed3c964073a0ee172f3daa62325af,
      0x021a68f707511aa3473045304306096086480165030301030101ff0433a031302f06096086480165,
      0x03040208302204200570ce0ef5cd7e59c6deefdc707c47ea924e5503754ac981aeff8ee7b786e67c],
    join [
      0x1396f4ba49be2ec43069775941b9ea85505d07191d3b32865,
      0x674db295ace3bfdefcd98443f9d92b4b3ba503f03c1668d93115ac829bba046163158f8d7fdc020f]),
   (bobKey, join [
      0x13082010fa003020102020111300506032b6570304e314c304a06035504030c436b6565,
      0x74615f616536756166366435626279737775737734666b6f7469337032366a7a67626d7a34786d6a,
      0x66756d796467766c346a6b367274617a3365346c746c6e79302a1813323032353031303230333034,
      0x30352e3530305a181332323235303130323033303430352e3530305a300d310b300906035504050c,
      0x023131302a300506032b65700321003d4017c3e843895a92b70aa74d1b7ebc9c982ccf2ec4968cc0,
      0xcd55f12af4660ca3473045304306096086480165030301030101ff0433a031302f06096086480165,
      0x03040208302204200570ce0ef5cd7e59c6deefdc707c47ea924e5503754ac981aeff8ee7b786e67c],
    join [
      0x1552d915162ec9e95979d19790a5abefb66e7855703394738,
      0xac714778e725a5d56dddf059212694dd3be395bbf52fc01be43d4a1948401e7c5559b9428f721a04])]

def digestOf (message : Bytes) : Octets 32 :=
  ⟨octets 32 ((digests.lookup (numberOf message)).getD 0), length_octets _ _⟩

/-- The signature of a key's owner over a message. -/
def signatureBy (key message : Bytes) : Except AccountError Bytes :=
  match signatures.find? (fun entry => entry.1 = key ∧ entry.2.1 = numberOf message) with
  | some entry => .ok (octets 64 entry.2.2)
  | none => .error .invalidConstruction

/-! ## The instance -/

/-- No sample has a key on one of the NIST or Koblitz curves. -/
scoped instance crypto : Crypto where
  sha3_256 := digestOf
  base32Decode := base32Decode
  k256Compressed _ := none
  p256Accepts _ := false
  ed25519Accepts key := key.bytes = aliceKey ∨ key.bytes = bobKey
  verifies a publicKey message signature :=
    a = .ed25519 ∧ (publicKey, numberOf message, numberOf signature) ∈ signatures
  verifiesDer _ _ _ _ := false

scoped instance lawfulCrypto : LawfulCrypto where
  base32Decode_encode := base32Decode_base32Encode
  k256Compressed_compressed h := by cases h
  p256Accepts_length h := by cases h

/-! ## Accounts -/

def alice : GenericAccount := ⟨.ed25519, aliceKey, ⟨aliceKey, by decide +kernel⟩⟩

def bob : GenericAccount := ⟨.ed25519, bobKey, ⟨bobKey, by decide +kernel⟩⟩

/-- An identifier account whose key repeats one octet. -/
def identifier (keyType : KeyPairType) (octet : UInt8) (h : keyType.algorithm = none) :
    GenericAccount :=
  ⟨keyType, List.replicate 32 octet, by simp [KeyPairType.Accepts, h]⟩

end KeetaNode.Reference
