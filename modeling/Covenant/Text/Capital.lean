import Covenant.Text

/-!
# Capital letters

The simple upper-case mapping of Unicode, one code point to one code point.
-/

set_option autoImplicit false

namespace Covenant.Text

/-- Runs `(first, count, stride, shift)`: of every `stride`-th code point from `first` on, `count`
have their capitals `shift` places on. -/
def capitalRuns : List (Nat × Nat × Nat × Int) :=
  [(97,26,1,-32),(181,1,1,743),(224,23,1,-32),(248,7,1,-32),(255,1,1,121),(257,24,2,-1),
   (305,1,1,-232),(307,3,2,-1),(314,8,2,-1),(331,23,2,-1),(378,3,2,-1),(383,1,1,-300),(384,1,1,195),
   (387,2,2,-1),(392,1,1,-1),(396,1,1,-1),(402,1,1,-1),(405,1,1,97),(409,1,1,-1),(410,1,1,163),
   (414,1,1,130),(417,3,2,-1),(424,1,1,-1),(429,1,1,-1),(432,1,1,-1),(436,2,2,-1),(441,1,1,-1),
   (445,1,1,-1),(447,1,1,56),(453,1,1,-1),(454,1,1,-2),(456,1,1,-1),(457,1,1,-2),(459,1,1,-1),
   (460,1,1,-2),(462,8,2,-1),(477,1,1,-79),(479,9,2,-1),(498,1,1,-1),(499,1,1,-2),(501,1,1,-1),
   (505,20,2,-1),(547,9,2,-1),(572,1,1,-1),(575,2,1,10815),(578,1,1,-1),(583,5,2,-1),
   (592,1,1,10783),(593,1,1,10780),(594,1,1,10782),(595,1,1,-210),(596,1,1,-206),(598,2,1,-205),
   (601,1,1,-202),(603,1,1,-203),(604,1,1,42319),(608,1,1,-205),(609,1,1,42315),(611,1,1,-207),
   (613,1,1,42280),(614,1,1,42308),(616,1,1,-209),(617,1,1,-211),(618,1,1,42308),(619,1,1,10743),
   (620,1,1,42305),(623,1,1,-211),(625,1,1,10749),(626,1,1,-213),(629,1,1,-214),(637,1,1,10727),
   (640,1,1,-218),(642,1,1,42307),(643,1,1,-218),(647,1,1,42282),(648,1,1,-218),(649,1,1,-69),
   (650,2,1,-217),(652,1,1,-71),(658,1,1,-219),(669,1,1,42261),(670,1,1,42258),(837,1,1,84),
   (881,2,2,-1),(887,1,1,-1),(891,3,1,130),(940,1,1,-38),(941,3,1,-37),(945,17,1,-32),(962,1,1,-31),
   (963,9,1,-32),(972,1,1,-64),(973,2,1,-63),(976,1,1,-62),(977,1,1,-57),(981,1,1,-47),
   (982,1,1,-54),(983,1,1,-8),(985,12,2,-1),(1008,1,1,-86),(1009,1,1,-80),(1010,1,1,7),
   (1011,1,1,-116),(1013,1,1,-96),(1016,1,1,-1),(1019,1,1,-1),(1072,32,1,-32),(1104,16,1,-80),
   (1121,17,2,-1),(1163,27,2,-1),(1218,7,2,-1),(1231,1,1,-15),(1233,48,2,-1),(1377,38,1,-48),
   (4304,43,1,3008),(4349,3,1,3008),(5112,6,1,-8),(7296,1,1,-6254),(7297,1,1,-6253),
   (7298,1,1,-6244),(7299,2,1,-6242),(7301,1,1,-6243),(7302,1,1,-6236),(7303,1,1,-6181),
   (7304,1,1,35266),(7545,1,1,35332),(7549,1,1,3814),(7566,1,1,35384),(7681,75,2,-1),(7835,1,1,-59),
   (7841,48,2,-1),(7936,8,1,8),(7952,6,1,8),(7968,8,1,8),(7984,8,1,8),(8000,6,1,8),(8017,4,2,8),
   (8032,8,1,8),(8048,2,1,74),(8050,4,1,86),(8054,2,1,100),(8056,2,1,128),(8058,2,1,112),
   (8060,2,1,126),(8064,8,1,8),(8080,8,1,8),(8096,8,1,8),(8112,2,1,8),(8115,1,1,9),(8126,1,1,-7205),
   (8131,1,1,9),(8144,2,1,8),(8160,2,1,8),(8165,1,1,7),(8179,1,1,9),(8526,1,1,-28),(8560,16,1,-16),
   (8580,1,1,-1),(9424,26,1,-26),(11312,48,1,-48),(11361,1,1,-1),(11365,1,1,-10795),
   (11366,1,1,-10792),(11368,3,2,-1),(11379,1,1,-1),(11382,1,1,-1),(11393,50,2,-1),(11500,2,2,-1),
   (11507,1,1,-1),(11520,38,1,-7264),(11559,1,1,-7264),(11565,1,1,-7264),(42561,23,2,-1),
   (42625,14,2,-1),(42787,7,2,-1),(42803,31,2,-1),(42874,2,2,-1),(42879,5,2,-1),(42892,1,1,-1),
   (42897,2,2,-1),(42900,1,1,48),(42903,10,2,-1),(42933,8,2,-1),(42952,2,2,-1),(42961,1,1,-1),
   (42967,2,2,-1),(42998,1,1,-1),(43859,1,1,-928),(43888,80,1,-38864),(65345,26,1,-32),
   (66600,40,1,-40),(66776,36,1,-40),(66967,11,1,-39),(66979,15,1,-39),(66995,7,1,-39),
   (67003,2,1,-39),(68800,51,1,-64),(71872,32,1,-32),(93792,32,1,-32),(125218,34,1,-34)]

def capitalPoint (point : Nat) : Nat :=
  match capitalRuns.find? (fun (first, count, stride, _) =>
      first ≤ point && point < first + count * stride && (point - first) % stride == 0) with
  | some (_, _, _, shift) => (point + shift).toNat
  | none => point

/-- Every character replaced by its capital, and invalid bytes by the replacement character unless
the text is plain ASCII. -/
def capitals (text : Text) : Text :=
  if text.all (· < 0x80) then text.map capital
  else ofCodePoints ((codePoints text).map capitalPoint)

end Covenant.Text
