/-!
Code point tables of the Unicode character database beyond ASCII: letters and digits, the two cases,
the case maps, combining marks and characters without a visible form. A table is a list of spans;
`Span.contains` reads one, and the predicates in `EntityForge.Text.Letters` and
`EntityForge.Text.Quoted` are the only readers.
-/

namespace EntityForge.Text

/-- The code points `first, first + step, …, last`, written `(first, last, step)`. -/
abbrev Span := Nat × Nat × Nat

/-- Membership of a code point in a span. -/
def Span.contains (s : Span) (n : Nat) : Bool :=
  s.1 ≤ n && n ≤ s.2.1 && (n - s.1) % s.2.2 == 0

/-- Membership of a code point in a table. -/
def inTable (table : List Span) (n : Nat) : Bool := table.any (·.contains n)

namespace Tables

/-- Letters, marks counted as letters, and numbers. -/
def alphanumeric : List Span := [
  (0xaa, 0xaa, 1), (0xb2, 0xb3, 1), (0xb5, 0xb5, 1), (0xb9, 0xba, 1), (0xbc, 0xbe, 1), (0xc0,
  0xd6, 1), (0xd8, 0xf6, 1), (0xf8, 0x2c1, 1), (0x2c6, 0x2d1, 1), (0x2e0, 0x2e4, 1), (0x2ec,
  0x2ee, 2), (0x345, 0x345, 1), (0x370, 0x374, 1), (0x376, 0x377, 1), (0x37a, 0x37d, 1), (0x37f,
  0x37f, 1), (0x386, 0x388, 2), (0x389, 0x38a, 1), (0x38c, 0x38e, 2), (0x38f, 0x3a1, 1), (0x3a3,
  0x3f5, 1), (0x3f7, 0x481, 1), (0x48a, 0x52f, 1), (0x531, 0x556, 1), (0x559, 0x559, 1), (0x560,
  0x588, 1), (0x5b0, 0x5bd, 1), (0x5bf, 0x5c1, 2), (0x5c2, 0x5c4, 2), (0x5c5, 0x5c7, 2), (0x5d0,
  0x5ea, 1), (0x5ef, 0x5f2, 1), (0x610, 0x61a, 1), (0x620, 0x657, 1), (0x659, 0x669, 1), (0x66e,
  0x6d3, 1), (0x6d5, 0x6dc, 1), (0x6e1, 0x6e8, 1), (0x6ed, 0x6fc, 1), (0x6ff, 0x6ff, 1), (0x710,
  0x73f, 1), (0x74d, 0x7b1, 1), (0x7c0, 0x7ea, 1), (0x7f4, 0x7f5, 1), (0x7fa, 0x7fa, 1), (0x800,
  0x817, 1), (0x81a, 0x82c, 1), (0x840, 0x858, 1), (0x860, 0x86a, 1), (0x870, 0x887, 1), (0x889,
  0x88e, 1), (0x8a0, 0x8c9, 1), (0x8d4, 0x8df, 1), (0x8e3, 0x8e9, 1), (0x8f0, 0x93b, 1), (0x93d,
  0x94c, 1), (0x94e, 0x950, 1), (0x955, 0x963, 1), (0x966, 0x96f, 1), (0x971, 0x983, 1), (0x985,
  0x98c, 1), (0x98f, 0x990, 1), (0x993, 0x9a8, 1), (0x9aa, 0x9b0, 1), (0x9b2, 0x9b2, 1), (0x9b6,
  0x9b9, 1), (0x9bd, 0x9c4, 1), (0x9c7, 0x9c8, 1), (0x9cb, 0x9cc, 1), (0x9ce, 0x9ce, 1), (0x9d7,
  0x9d7, 1), (0x9dc, 0x9dd, 1), (0x9df, 0x9e3, 1), (0x9e6, 0x9f1, 1), (0x9f4, 0x9f9, 1), (0x9fc,
  0x9fc, 1), (0xa01, 0xa03, 1), (0xa05, 0xa0a, 1), (0xa0f, 0xa10, 1), (0xa13, 0xa28, 1), (0xa2a,
  0xa30, 1), (0xa32, 0xa33, 1), (0xa35, 0xa36, 1), (0xa38, 0xa39, 1), (0xa3e, 0xa42, 1), (0xa47,
  0xa48, 1), (0xa4b, 0xa4c, 1), (0xa51, 0xa51, 1), (0xa59, 0xa5c, 1), (0xa5e, 0xa5e, 1), (0xa66,
  0xa75, 1), (0xa81, 0xa83, 1), (0xa85, 0xa8d, 1), (0xa8f, 0xa91, 1), (0xa93, 0xaa8, 1), (0xaaa,
  0xab0, 1), (0xab2, 0xab3, 1), (0xab5, 0xab9, 1), (0xabd, 0xac5, 1), (0xac7, 0xac9, 1), (0xacb,
  0xacc, 1), (0xad0, 0xad0, 1), (0xae0, 0xae3, 1), (0xae6, 0xaef, 1), (0xaf9, 0xafc, 1), (0xb01,
  0xb03, 1), (0xb05, 0xb0c, 1), (0xb0f, 0xb10, 1), (0xb13, 0xb28, 1), (0xb2a, 0xb30, 1), (0xb32,
  0xb33, 1), (0xb35, 0xb39, 1), (0xb3d, 0xb44, 1), (0xb47, 0xb48, 1), (0xb4b, 0xb4c, 1), (0xb56,
  0xb57, 1), (0xb5c, 0xb5d, 1), (0xb5f, 0xb63, 1), (0xb66, 0xb6f, 1), (0xb71, 0xb77, 1), (0xb82,
  0xb83, 1), (0xb85, 0xb8a, 1), (0xb8e, 0xb90, 1), (0xb92, 0xb95, 1), (0xb99, 0xb9a, 1), (0xb9c,
  0xb9e, 2), (0xb9f, 0xb9f, 1), (0xba3, 0xba4, 1), (0xba8, 0xbaa, 1), (0xbae, 0xbb9, 1), (0xbbe,
  0xbc2, 1), (0xbc6, 0xbc8, 1), (0xbca, 0xbcc, 1), (0xbd0, 0xbd0, 1), (0xbd7, 0xbd7, 1), (0xbe6,
  0xbf2, 1), (0xc00, 0xc0c, 1), (0xc0e, 0xc10, 1), (0xc12, 0xc28, 1), (0xc2a, 0xc39, 1), (0xc3d,
  0xc44, 1), (0xc46, 0xc48, 1), (0xc4a, 0xc4c, 1), (0xc55, 0xc56, 1), (0xc58, 0xc5a, 1), (0xc5d,
  0xc5d, 1), (0xc60, 0xc63, 1), (0xc66, 0xc6f, 1), (0xc78, 0xc7e, 1), (0xc80, 0xc83, 1), (0xc85,
  0xc8c, 1), (0xc8e, 0xc90, 1), (0xc92, 0xca8, 1), (0xcaa, 0xcb3, 1), (0xcb5, 0xcb9, 1), (0xcbd,
  0xcc4, 1), (0xcc6, 0xcc8, 1), (0xcca, 0xccc, 1), (0xcd5, 0xcd6, 1), (0xcdd, 0xcde, 1), (0xce0,
  0xce3, 1), (0xce6, 0xcef, 1), (0xcf1, 0xcf3, 1), (0xd00, 0xd0c, 1), (0xd0e, 0xd10, 1), (0xd12,
  0xd3a, 1), (0xd3d, 0xd44, 1), (0xd46, 0xd48, 1), (0xd4a, 0xd4c, 1), (0xd4e, 0xd4e, 1), (0xd54,
  0xd63, 1), (0xd66, 0xd78, 1), (0xd7a, 0xd7f, 1), (0xd81, 0xd83, 1), (0xd85, 0xd96, 1), (0xd9a,
  0xdb1, 1), (0xdb3, 0xdbb, 1), (0xdbd, 0xdbd, 1), (0xdc0, 0xdc6, 1), (0xdcf, 0xdd4, 1), (0xdd6,
  0xdd8, 2), (0xdd9, 0xddf, 1), (0xde6, 0xdef, 1), (0xdf2, 0xdf3, 1), (0xe01, 0xe3a, 1), (0xe40,
  0xe46, 1), (0xe4d, 0xe4d, 1), (0xe50, 0xe59, 1), (0xe81, 0xe82, 1), (0xe84, 0xe86, 2), (0xe87,
  0xe8a, 1), (0xe8c, 0xea3, 1), (0xea5, 0xea7, 2), (0xea8, 0xeb9, 1), (0xebb, 0xebd, 1), (0xec0,
  0xec4, 1), (0xec6, 0xec6, 1), (0xecd, 0xecd, 1), (0xed0, 0xed9, 1), (0xedc, 0xedf, 1), (0xf00,
  0xf00, 1), (0xf20, 0xf33, 1), (0xf40, 0xf47, 1), (0xf49, 0xf6c, 1), (0xf71, 0xf83, 1), (0xf88,
  0xf97, 1), (0xf99, 0xfbc, 1), (0x1000, 0x1036, 1), (0x1038, 0x1038, 1), (0x103b, 0x1049, 1),
  (0x1050, 0x109d, 1), (0x10a0, 0x10c5, 1), (0x10c7, 0x10c7, 1), (0x10cd, 0x10cd, 1), (0x10d0,
  0x10fa, 1), (0x10fc, 0x1248, 1), (0x124a, 0x124d, 1), (0x1250, 0x1256, 1), (0x1258, 0x125a,
  2), (0x125b, 0x125d, 1), (0x1260, 0x1288, 1), (0x128a, 0x128d, 1), (0x1290, 0x12b0, 1),
  (0x12b2, 0x12b5, 1), (0x12b8, 0x12be, 1), (0x12c0, 0x12c2, 2), (0x12c3, 0x12c5, 1), (0x12c8,
  0x12d6, 1), (0x12d8, 0x1310, 1), (0x1312, 0x1315, 1), (0x1318, 0x135a, 1), (0x1369, 0x137c,
  1), (0x1380, 0x138f, 1), (0x13a0, 0x13f5, 1), (0x13f8, 0x13fd, 1), (0x1401, 0x166c, 1),
  (0x166f, 0x167f, 1), (0x1681, 0x169a, 1), (0x16a0, 0x16ea, 1), (0x16ee, 0x16f8, 1), (0x1700,
  0x1713, 1), (0x171f, 0x1733, 1), (0x1740, 0x1753, 1), (0x1760, 0x176c, 1), (0x176e, 0x1770,
  1), (0x1772, 0x1773, 1), (0x1780, 0x17b3, 1), (0x17b6, 0x17c8, 1), (0x17d7, 0x17d7, 1),
  (0x17dc, 0x17dc, 1), (0x17e0, 0x17e9, 1), (0x17f0, 0x17f9, 1), (0x1810, 0x1819, 1), (0x1820,
  0x1878, 1), (0x1880, 0x18aa, 1), (0x18b0, 0x18f5, 1), (0x1900, 0x191e, 1), (0x1920, 0x192b,
  1), (0x1930, 0x1938, 1), (0x1946, 0x196d, 1), (0x1970, 0x1974, 1), (0x1980, 0x19ab, 1),
  (0x19b0, 0x19c9, 1), (0x19d0, 0x19da, 1), (0x1a00, 0x1a1b, 1), (0x1a20, 0x1a5e, 1), (0x1a61,
  0x1a74, 1), (0x1a80, 0x1a89, 1), (0x1a90, 0x1a99, 1), (0x1aa7, 0x1aa7, 1), (0x1abf, 0x1ac0,
  1), (0x1acc, 0x1ace, 1), (0x1b00, 0x1b33, 1), (0x1b35, 0x1b43, 1), (0x1b45, 0x1b4c, 1),
  (0x1b50, 0x1b59, 1), (0x1b80, 0x1ba9, 1), (0x1bac, 0x1be5, 1), (0x1be7, 0x1bf1, 1), (0x1c00,
  0x1c36, 1), (0x1c40, 0x1c49, 1), (0x1c4d, 0x1c7d, 1), (0x1c80, 0x1c88, 1), (0x1c90, 0x1cba,
  1), (0x1cbd, 0x1cbf, 1), (0x1ce9, 0x1cec, 1), (0x1cee, 0x1cf3, 1), (0x1cf5, 0x1cf6, 1),
  (0x1cfa, 0x1cfa, 1), (0x1d00, 0x1dbf, 1), (0x1de7, 0x1df4, 1), (0x1e00, 0x1f15, 1), (0x1f18,
  0x1f1d, 1), (0x1f20, 0x1f45, 1), (0x1f48, 0x1f4d, 1), (0x1f50, 0x1f57, 1), (0x1f59, 0x1f5f,
  2), (0x1f60, 0x1f7d, 1), (0x1f80, 0x1fb4, 1), (0x1fb6, 0x1fbc, 1), (0x1fbe, 0x1fbe, 1),
  (0x1fc2, 0x1fc4, 1), (0x1fc6, 0x1fcc, 1), (0x1fd0, 0x1fd3, 1), (0x1fd6, 0x1fdb, 1), (0x1fe0,
  0x1fec, 1), (0x1ff2, 0x1ff4, 1), (0x1ff6, 0x1ffc, 1), (0x2070, 0x2071, 1), (0x2074, 0x2079,
  1), (0x207f, 0x2089, 1), (0x2090, 0x209c, 1), (0x2102, 0x2102, 1), (0x2107, 0x2107, 1),
  (0x210a, 0x2113, 1), (0x2115, 0x2115, 1), (0x2119, 0x211d, 1), (0x2124, 0x212a, 2), (0x212b,
  0x212d, 1), (0x212f, 0x2139, 1), (0x213c, 0x213f, 1), (0x2145, 0x2149, 1), (0x214e, 0x2150,
  2), (0x2151, 0x2189, 1), (0x2460, 0x249b, 1), (0x24b6, 0x24ff, 1), (0x2776, 0x2793, 1),
  (0x2c00, 0x2ce4, 1), (0x2ceb, 0x2cee, 1), (0x2cf2, 0x2cf3, 1), (0x2cfd, 0x2cfd, 1), (0x2d00,
  0x2d25, 1), (0x2d27, 0x2d27, 1), (0x2d2d, 0x2d2d, 1), (0x2d30, 0x2d67, 1), (0x2d6f, 0x2d6f,
  1), (0x2d80, 0x2d96, 1), (0x2da0, 0x2da6, 1), (0x2da8, 0x2dae, 1), (0x2db0, 0x2db6, 1),
  (0x2db8, 0x2dbe, 1), (0x2dc0, 0x2dc6, 1), (0x2dc8, 0x2dce, 1), (0x2dd0, 0x2dd6, 1), (0x2dd8,
  0x2dde, 1), (0x2de0, 0x2dff, 1), (0x2e2f, 0x2e2f, 1), (0x3005, 0x3007, 1), (0x3021, 0x3029,
  1), (0x3031, 0x3035, 1), (0x3038, 0x303c, 1), (0x3041, 0x3096, 1), (0x309d, 0x309f, 1),
  (0x30a1, 0x30fa, 1), (0x30fc, 0x30ff, 1), (0x3105, 0x312f, 1), (0x3131, 0x318e, 1), (0x3192,
  0x3195, 1), (0x31a0, 0x31bf, 1), (0x31f0, 0x31ff, 1), (0x3220, 0x3229, 1), (0x3248, 0x324f,
  1), (0x3251, 0x325f, 1), (0x3280, 0x3289, 1), (0x32b1, 0x32bf, 1), (0x3400, 0x4dbf, 1),
  (0x4e00, 0xa48c, 1), (0xa4d0, 0xa4fd, 1), (0xa500, 0xa60c, 1), (0xa610, 0xa62b, 1), (0xa640,
  0xa66e, 1), (0xa674, 0xa67b, 1), (0xa67f, 0xa6ef, 1), (0xa717, 0xa71f, 1), (0xa722, 0xa788,
  1), (0xa78b, 0xa7ca, 1), (0xa7d0, 0xa7d1, 1), (0xa7d3, 0xa7d5, 2), (0xa7d6, 0xa7d9, 1),
  (0xa7f2, 0xa805, 1), (0xa807, 0xa827, 1), (0xa830, 0xa835, 1), (0xa840, 0xa873, 1), (0xa880,
  0xa8c3, 1), (0xa8c5, 0xa8c5, 1), (0xa8d0, 0xa8d9, 1), (0xa8f2, 0xa8f7, 1), (0xa8fb, 0xa8fd,
  2), (0xa8fe, 0xa92a, 1), (0xa930, 0xa952, 1), (0xa960, 0xa97c, 1), (0xa980, 0xa9b2, 1),
  (0xa9b4, 0xa9bf, 1), (0xa9cf, 0xa9d9, 1), (0xa9e0, 0xa9fe, 1), (0xaa00, 0xaa36, 1), (0xaa40,
  0xaa4d, 1), (0xaa50, 0xaa59, 1), (0xaa60, 0xaa76, 1), (0xaa7a, 0xaabe, 1), (0xaac0, 0xaac2,
  2), (0xaadb, 0xaadd, 1), (0xaae0, 0xaaef, 1), (0xaaf2, 0xaaf5, 1), (0xab01, 0xab06, 1),
  (0xab09, 0xab0e, 1), (0xab11, 0xab16, 1), (0xab20, 0xab26, 1), (0xab28, 0xab2e, 1), (0xab30,
  0xab5a, 1), (0xab5c, 0xab69, 1), (0xab70, 0xabea, 1), (0xabf0, 0xabf9, 1), (0xac00, 0xd7a3,
  1), (0xd7b0, 0xd7c6, 1), (0xd7cb, 0xd7fb, 1), (0xf900, 0xfa6d, 1), (0xfa70, 0xfad9, 1),
  (0xfb00, 0xfb06, 1), (0xfb13, 0xfb17, 1), (0xfb1d, 0xfb28, 1), (0xfb2a, 0xfb36, 1), (0xfb38,
  0xfb3c, 1), (0xfb3e, 0xfb40, 2), (0xfb41, 0xfb43, 2), (0xfb44, 0xfb46, 2), (0xfb47, 0xfbb1,
  1), (0xfbd3, 0xfd3d, 1), (0xfd50, 0xfd8f, 1), (0xfd92, 0xfdc7, 1), (0xfdf0, 0xfdfb, 1),
  (0xfe70, 0xfe74, 1), (0xfe76, 0xfefc, 1), (0xff10, 0xff19, 1), (0xff21, 0xff3a, 1), (0xff41,
  0xff5a, 1), (0xff66, 0xffbe, 1), (0xffc2, 0xffc7, 1), (0xffca, 0xffcf, 1), (0xffd2, 0xffd7,
  1), (0xffda, 0xffdc, 1), (0x10000, 0x1000b, 1), (0x1000d, 0x10026, 1), (0x10028, 0x1003a, 1),
  (0x1003c, 0x1003d, 1), (0x1003f, 0x1004d, 1), (0x10050, 0x1005d, 1), (0x10080, 0x100fa, 1),
  (0x10107, 0x10133, 1), (0x10140, 0x10178, 1), (0x1018a, 0x1018b, 1), (0x10280, 0x1029c, 1),
  (0x102a0, 0x102d0, 1), (0x102e1, 0x102fb, 1), (0x10300, 0x10323, 1), (0x1032d, 0x1034a, 1),
  (0x10350, 0x1037a, 1), (0x10380, 0x1039d, 1), (0x103a0, 0x103c3, 1), (0x103c8, 0x103cf, 1),
  (0x103d1, 0x103d5, 1), (0x10400, 0x1049d, 1), (0x104a0, 0x104a9, 1), (0x104b0, 0x104d3, 1),
  (0x104d8, 0x104fb, 1), (0x10500, 0x10527, 1), (0x10530, 0x10563, 1), (0x10570, 0x1057a, 1),
  (0x1057c, 0x1058a, 1), (0x1058c, 0x10592, 1), (0x10594, 0x10595, 1), (0x10597, 0x105a1, 1),
  (0x105a3, 0x105b1, 1), (0x105b3, 0x105b9, 1), (0x105bb, 0x105bc, 1), (0x10600, 0x10736, 1),
  (0x10740, 0x10755, 1), (0x10760, 0x10767, 1), (0x10780, 0x10785, 1), (0x10787, 0x107b0, 1),
  (0x107b2, 0x107ba, 1), (0x10800, 0x10805, 1), (0x10808, 0x1080a, 2), (0x1080b, 0x10835, 1),
  (0x10837, 0x10838, 1), (0x1083c, 0x1083c, 1), (0x1083f, 0x10855, 1), (0x10858, 0x10876, 1),
  (0x10879, 0x1089e, 1), (0x108a7, 0x108af, 1), (0x108e0, 0x108f2, 1), (0x108f4, 0x108f5, 1),
  (0x108fb, 0x1091b, 1), (0x10920, 0x10939, 1), (0x10980, 0x109b7, 1), (0x109bc, 0x109cf, 1),
  (0x109d2, 0x10a03, 1), (0x10a05, 0x10a06, 1), (0x10a0c, 0x10a13, 1), (0x10a15, 0x10a17, 1),
  (0x10a19, 0x10a35, 1), (0x10a40, 0x10a48, 1), (0x10a60, 0x10a7e, 1), (0x10a80, 0x10a9f, 1),
  (0x10ac0, 0x10ac7, 1), (0x10ac9, 0x10ae4, 1), (0x10aeb, 0x10aef, 1), (0x10b00, 0x10b35, 1),
  (0x10b40, 0x10b55, 1), (0x10b58, 0x10b72, 1), (0x10b78, 0x10b91, 1), (0x10ba9, 0x10baf, 1),
  (0x10c00, 0x10c48, 1), (0x10c80, 0x10cb2, 1), (0x10cc0, 0x10cf2, 1), (0x10cfa, 0x10d27, 1),
  (0x10d30, 0x10d39, 1), (0x10e60, 0x10e7e, 1), (0x10e80, 0x10ea9, 1), (0x10eab, 0x10eac, 1),
  (0x10eb0, 0x10eb1, 1), (0x10f00, 0x10f27, 1), (0x10f30, 0x10f45, 1), (0x10f51, 0x10f54, 1),
  (0x10f70, 0x10f81, 1), (0x10fb0, 0x10fcb, 1), (0x10fe0, 0x10ff6, 1), (0x11000, 0x11045, 1),
  (0x11052, 0x1106f, 1), (0x11071, 0x11075, 1), (0x11080, 0x110b8, 1), (0x110c2, 0x110c2, 1),
  (0x110d0, 0x110e8, 1), (0x110f0, 0x110f9, 1), (0x11100, 0x11132, 1), (0x11136, 0x1113f, 1),
  (0x11144, 0x11147, 1), (0x11150, 0x11172, 1), (0x11176, 0x11176, 1), (0x11180, 0x111bf, 1),
  (0x111c1, 0x111c4, 1), (0x111ce, 0x111da, 1), (0x111dc, 0x111dc, 1), (0x111e1, 0x111f4, 1),
  (0x11200, 0x11211, 1), (0x11213, 0x11234, 1), (0x11237, 0x11237, 1), (0x1123e, 0x11241, 1),
  (0x11280, 0x11286, 1), (0x11288, 0x1128a, 2), (0x1128b, 0x1128d, 1), (0x1128f, 0x1129d, 1),
  (0x1129f, 0x112a8, 1), (0x112b0, 0x112e8, 1), (0x112f0, 0x112f9, 1), (0x11300, 0x11303, 1),
  (0x11305, 0x1130c, 1), (0x1130f, 0x11310, 1), (0x11313, 0x11328, 1), (0x1132a, 0x11330, 1),
  (0x11332, 0x11333, 1), (0x11335, 0x11339, 1), (0x1133d, 0x11344, 1), (0x11347, 0x11348, 1),
  (0x1134b, 0x1134c, 1), (0x11350, 0x11350, 1), (0x11357, 0x11357, 1), (0x1135d, 0x11363, 1),
  (0x11400, 0x11441, 1), (0x11443, 0x11445, 1), (0x11447, 0x1144a, 1), (0x11450, 0x11459, 1),
  (0x1145f, 0x11461, 1), (0x11480, 0x114c1, 1), (0x114c4, 0x114c5, 1), (0x114c7, 0x114c7, 1),
  (0x114d0, 0x114d9, 1), (0x11580, 0x115b5, 1), (0x115b8, 0x115be, 1), (0x115d8, 0x115dd, 1),
  (0x11600, 0x1163e, 1), (0x11640, 0x11640, 1), (0x11644, 0x11644, 1), (0x11650, 0x11659, 1),
  (0x11680, 0x116b5, 1), (0x116b8, 0x116b8, 1), (0x116c0, 0x116c9, 1), (0x11700, 0x1171a, 1),
  (0x1171d, 0x1172a, 1), (0x11730, 0x1173b, 1), (0x11740, 0x11746, 1), (0x11800, 0x11838, 1),
  (0x118a0, 0x118f2, 1), (0x118ff, 0x11906, 1), (0x11909, 0x11909, 1), (0x1190c, 0x11913, 1),
  (0x11915, 0x11916, 1), (0x11918, 0x11935, 1), (0x11937, 0x11938, 1), (0x1193b, 0x1193c, 1),
  (0x1193f, 0x11942, 1), (0x11950, 0x11959, 1), (0x119a0, 0x119a7, 1), (0x119aa, 0x119d7, 1),
  (0x119da, 0x119df, 1), (0x119e1, 0x119e3, 2), (0x119e4, 0x119e4, 1), (0x11a00, 0x11a32, 1),
  (0x11a35, 0x11a3e, 1), (0x11a50, 0x11a97, 1), (0x11a9d, 0x11a9d, 1), (0x11ab0, 0x11af8, 1),
  (0x11c00, 0x11c08, 1), (0x11c0a, 0x11c36, 1), (0x11c38, 0x11c3e, 1), (0x11c40, 0x11c40, 1),
  (0x11c50, 0x11c6c, 1), (0x11c72, 0x11c8f, 1), (0x11c92, 0x11ca7, 1), (0x11ca9, 0x11cb6, 1),
  (0x11d00, 0x11d06, 1), (0x11d08, 0x11d09, 1), (0x11d0b, 0x11d36, 1), (0x11d3a, 0x11d3c, 2),
  (0x11d3d, 0x11d3f, 2), (0x11d40, 0x11d41, 1), (0x11d43, 0x11d43, 1), (0x11d46, 0x11d47, 1),
  (0x11d50, 0x11d59, 1), (0x11d60, 0x11d65, 1), (0x11d67, 0x11d68, 1), (0x11d6a, 0x11d8e, 1),
  (0x11d90, 0x11d91, 1), (0x11d93, 0x11d96, 1), (0x11d98, 0x11d98, 1), (0x11da0, 0x11da9, 1),
  (0x11ee0, 0x11ef6, 1), (0x11f00, 0x11f10, 1), (0x11f12, 0x11f3a, 1), (0x11f3e, 0x11f40, 1),
  (0x11f50, 0x11f59, 1), (0x11fb0, 0x11fb0, 1), (0x11fc0, 0x11fd4, 1), (0x12000, 0x12399, 1),
  (0x12400, 0x1246e, 1), (0x12480, 0x12543, 1), (0x12f90, 0x12ff0, 1), (0x13000, 0x1342f, 1),
  (0x13441, 0x13446, 1), (0x14400, 0x14646, 1), (0x16800, 0x16a38, 1), (0x16a40, 0x16a5e, 1),
  (0x16a60, 0x16a69, 1), (0x16a70, 0x16abe, 1), (0x16ac0, 0x16ac9, 1), (0x16ad0, 0x16aed, 1),
  (0x16b00, 0x16b2f, 1), (0x16b40, 0x16b43, 1), (0x16b50, 0x16b59, 1), (0x16b5b, 0x16b61, 1),
  (0x16b63, 0x16b77, 1), (0x16b7d, 0x16b8f, 1), (0x16e40, 0x16e96, 1), (0x16f00, 0x16f4a, 1),
  (0x16f4f, 0x16f87, 1), (0x16f8f, 0x16f9f, 1), (0x16fe0, 0x16fe1, 1), (0x16fe3, 0x16fe3, 1),
  (0x16ff0, 0x16ff1, 1), (0x17000, 0x187f7, 1), (0x18800, 0x18cd5, 1), (0x18d00, 0x18d08, 1),
  (0x1aff0, 0x1aff3, 1), (0x1aff5, 0x1affb, 1), (0x1affd, 0x1affe, 1), (0x1b000, 0x1b122, 1),
  (0x1b132, 0x1b132, 1), (0x1b150, 0x1b152, 1), (0x1b155, 0x1b155, 1), (0x1b164, 0x1b167, 1),
  (0x1b170, 0x1b2fb, 1), (0x1bc00, 0x1bc6a, 1), (0x1bc70, 0x1bc7c, 1), (0x1bc80, 0x1bc88, 1),
  (0x1bc90, 0x1bc99, 1), (0x1bc9e, 0x1bc9e, 1), (0x1d2c0, 0x1d2d3, 1), (0x1d2e0, 0x1d2f3, 1),
  (0x1d360, 0x1d378, 1), (0x1d400, 0x1d454, 1), (0x1d456, 0x1d49c, 1), (0x1d49e, 0x1d49f, 1),
  (0x1d4a2, 0x1d4a2, 1), (0x1d4a5, 0x1d4a6, 1), (0x1d4a9, 0x1d4ac, 1), (0x1d4ae, 0x1d4b9, 1),
  (0x1d4bb, 0x1d4bd, 2), (0x1d4be, 0x1d4c3, 1), (0x1d4c5, 0x1d505, 1), (0x1d507, 0x1d50a, 1),
  (0x1d50d, 0x1d514, 1), (0x1d516, 0x1d51c, 1), (0x1d51e, 0x1d539, 1), (0x1d53b, 0x1d53e, 1),
  (0x1d540, 0x1d544, 1), (0x1d546, 0x1d546, 1), (0x1d54a, 0x1d550, 1), (0x1d552, 0x1d6a5, 1),
  (0x1d6a8, 0x1d6c0, 1), (0x1d6c2, 0x1d6da, 1), (0x1d6dc, 0x1d6fa, 1), (0x1d6fc, 0x1d714, 1),
  (0x1d716, 0x1d734, 1), (0x1d736, 0x1d74e, 1), (0x1d750, 0x1d76e, 1), (0x1d770, 0x1d788, 1),
  (0x1d78a, 0x1d7a8, 1), (0x1d7aa, 0x1d7c2, 1), (0x1d7c4, 0x1d7cb, 1), (0x1d7ce, 0x1d7ff, 1),
  (0x1df00, 0x1df1e, 1), (0x1df25, 0x1df2a, 1), (0x1e000, 0x1e006, 1), (0x1e008, 0x1e018, 1),
  (0x1e01b, 0x1e021, 1), (0x1e023, 0x1e024, 1), (0x1e026, 0x1e02a, 1), (0x1e030, 0x1e06d, 1),
  (0x1e08f, 0x1e08f, 1), (0x1e100, 0x1e12c, 1), (0x1e137, 0x1e13d, 1), (0x1e140, 0x1e149, 1),
  (0x1e14e, 0x1e14e, 1), (0x1e290, 0x1e2ad, 1), (0x1e2c0, 0x1e2eb, 1), (0x1e2f0, 0x1e2f9, 1),
  (0x1e4d0, 0x1e4eb, 1), (0x1e4f0, 0x1e4f9, 1), (0x1e7e0, 0x1e7e6, 1), (0x1e7e8, 0x1e7eb, 1),
  (0x1e7ed, 0x1e7ee, 1), (0x1e7f0, 0x1e7fe, 1), (0x1e800, 0x1e8c4, 1), (0x1e8c7, 0x1e8cf, 1),
  (0x1e900, 0x1e943, 1), (0x1e947, 0x1e947, 1), (0x1e94b, 0x1e94b, 1), (0x1e950, 0x1e959, 1),
  (0x1ec71, 0x1ecab, 1), (0x1ecad, 0x1ecaf, 1), (0x1ecb1, 0x1ecb4, 1), (0x1ed01, 0x1ed2d, 1),
  (0x1ed2f, 0x1ed3d, 1), (0x1ee00, 0x1ee03, 1), (0x1ee05, 0x1ee1f, 1), (0x1ee21, 0x1ee22, 1),
  (0x1ee24, 0x1ee24, 1), (0x1ee27, 0x1ee29, 2), (0x1ee2a, 0x1ee32, 1), (0x1ee34, 0x1ee37, 1),
  (0x1ee39, 0x1ee3b, 2), (0x1ee42, 0x1ee42, 1), (0x1ee47, 0x1ee4d, 2), (0x1ee4e, 0x1ee4f, 1),
  (0x1ee51, 0x1ee52, 1), (0x1ee54, 0x1ee54, 1), (0x1ee57, 0x1ee61, 2), (0x1ee62, 0x1ee64, 2),
  (0x1ee67, 0x1ee6a, 1), (0x1ee6c, 0x1ee72, 1), (0x1ee74, 0x1ee77, 1), (0x1ee79, 0x1ee7c, 1),
  (0x1ee7e, 0x1ee80, 2), (0x1ee81, 0x1ee89, 1), (0x1ee8b, 0x1ee9b, 1), (0x1eea1, 0x1eea3, 1),
  (0x1eea5, 0x1eea9, 1), (0x1eeab, 0x1eebb, 1), (0x1f100, 0x1f10c, 1), (0x1f130, 0x1f149, 1),
  (0x1f150, 0x1f169, 1), (0x1f170, 0x1f189, 1), (0x1fbf0, 0x1fbf9, 1), (0x20000, 0x2a6df, 1),
  (0x2a700, 0x2b739, 1), (0x2b740, 0x2b81d, 1), (0x2b820, 0x2cea1, 1), (0x2ceb0, 0x2ebe0, 1),
  (0x2f800, 0x2fa1d, 1), (0x30000, 0x3134a, 1), (0x31350, 0x323af, 1)]

/-- Upper case characters. -/
def uppercase : List Span := [
  (0xc0, 0xd6, 1), (0xd8, 0xde, 1), (0x100, 0x136, 2), (0x139, 0x147, 2), (0x14a, 0x178, 2),
  (0x179, 0x17d, 2), (0x181, 0x182, 1), (0x184, 0x186, 2), (0x187, 0x189, 2), (0x18a, 0x18b, 1),
  (0x18e, 0x191, 1), (0x193, 0x194, 1), (0x196, 0x198, 1), (0x19c, 0x19d, 1), (0x19f, 0x1a0, 1),
  (0x1a2, 0x1a6, 2), (0x1a7, 0x1a9, 2), (0x1ac, 0x1ae, 2), (0x1af, 0x1b1, 2), (0x1b2, 0x1b3, 1),
  (0x1b5, 0x1b7, 2), (0x1b8, 0x1b8, 1), (0x1bc, 0x1bc, 1), (0x1c4, 0x1c4, 1), (0x1c7, 0x1c7, 1),
  (0x1ca, 0x1ca, 1), (0x1cd, 0x1db, 2), (0x1de, 0x1ee, 2), (0x1f1, 0x1f1, 1), (0x1f4, 0x1f6, 2),
  (0x1f7, 0x1f8, 1), (0x1fa, 0x232, 2), (0x23a, 0x23b, 1), (0x23d, 0x23e, 1), (0x241, 0x243, 2),
  (0x244, 0x246, 1), (0x248, 0x24e, 2), (0x370, 0x372, 2), (0x376, 0x376, 1), (0x37f, 0x37f, 1),
  (0x386, 0x388, 2), (0x389, 0x38a, 1), (0x38c, 0x38e, 2), (0x38f, 0x391, 2), (0x392, 0x3a1, 1),
  (0x3a3, 0x3ab, 1), (0x3cf, 0x3cf, 1), (0x3d2, 0x3d4, 1), (0x3d8, 0x3ee, 2), (0x3f4, 0x3f4, 1),
  (0x3f7, 0x3f9, 2), (0x3fa, 0x3fa, 1), (0x3fd, 0x42f, 1), (0x460, 0x480, 2), (0x48a, 0x4c0, 2),
  (0x4c1, 0x4cd, 2), (0x4d0, 0x52e, 2), (0x531, 0x556, 1), (0x10a0, 0x10c5, 1), (0x10c7, 0x10c7,
  1), (0x10cd, 0x10cd, 1), (0x13a0, 0x13f5, 1), (0x1c90, 0x1cba, 1), (0x1cbd, 0x1cbf, 1),
  (0x1e00, 0x1e94, 2), (0x1e9e, 0x1efe, 2), (0x1f08, 0x1f0f, 1), (0x1f18, 0x1f1d, 1), (0x1f28,
  0x1f2f, 1), (0x1f38, 0x1f3f, 1), (0x1f48, 0x1f4d, 1), (0x1f59, 0x1f5f, 2), (0x1f68, 0x1f6f,
  1), (0x1fb8, 0x1fbb, 1), (0x1fc8, 0x1fcb, 1), (0x1fd8, 0x1fdb, 1), (0x1fe8, 0x1fec, 1),
  (0x1ff8, 0x1ffb, 1), (0x2102, 0x2102, 1), (0x2107, 0x2107, 1), (0x210b, 0x210d, 1), (0x2110,
  0x2112, 1), (0x2115, 0x2115, 1), (0x2119, 0x211d, 1), (0x2124, 0x212a, 2), (0x212b, 0x212d,
  1), (0x2130, 0x2133, 1), (0x213e, 0x213f, 1), (0x2145, 0x2145, 1), (0x2160, 0x216f, 1),
  (0x2183, 0x2183, 1), (0x24b6, 0x24cf, 1), (0x2c00, 0x2c2f, 1), (0x2c60, 0x2c62, 2), (0x2c63,
  0x2c64, 1), (0x2c67, 0x2c6d, 2), (0x2c6e, 0x2c70, 1), (0x2c72, 0x2c72, 1), (0x2c75, 0x2c75,
  1), (0x2c7e, 0x2c80, 1), (0x2c82, 0x2ce2, 2), (0x2ceb, 0x2ced, 2), (0x2cf2, 0x2cf2, 1),
  (0xa640, 0xa66c, 2), (0xa680, 0xa69a, 2), (0xa722, 0xa72e, 2), (0xa732, 0xa76e, 2), (0xa779,
  0xa77d, 2), (0xa77e, 0xa786, 2), (0xa78b, 0xa78d, 2), (0xa790, 0xa792, 2), (0xa796, 0xa7aa,
  2), (0xa7ab, 0xa7ae, 1), (0xa7b0, 0xa7b4, 1), (0xa7b6, 0xa7c4, 2), (0xa7c5, 0xa7c7, 1),
  (0xa7c9, 0xa7c9, 1), (0xa7d0, 0xa7d0, 1), (0xa7d6, 0xa7d8, 2), (0xa7f5, 0xa7f5, 1), (0xff21,
  0xff3a, 1), (0x10400, 0x10427, 1), (0x104b0, 0x104d3, 1), (0x10570, 0x1057a, 1), (0x1057c,
  0x1058a, 1), (0x1058c, 0x10592, 1), (0x10594, 0x10595, 1), (0x10c80, 0x10cb2, 1), (0x118a0,
  0x118bf, 1), (0x16e40, 0x16e5f, 1), (0x1d400, 0x1d419, 1), (0x1d434, 0x1d44d, 1), (0x1d468,
  0x1d481, 1), (0x1d49c, 0x1d49e, 2), (0x1d49f, 0x1d49f, 1), (0x1d4a2, 0x1d4a2, 1), (0x1d4a5,
  0x1d4a6, 1), (0x1d4a9, 0x1d4ac, 1), (0x1d4ae, 0x1d4b5, 1), (0x1d4d0, 0x1d4e9, 1), (0x1d504,
  0x1d505, 1), (0x1d507, 0x1d50a, 1), (0x1d50d, 0x1d514, 1), (0x1d516, 0x1d51c, 1), (0x1d538,
  0x1d539, 1), (0x1d53b, 0x1d53e, 1), (0x1d540, 0x1d544, 1), (0x1d546, 0x1d546, 1), (0x1d54a,
  0x1d550, 1), (0x1d56c, 0x1d585, 1), (0x1d5a0, 0x1d5b9, 1), (0x1d5d4, 0x1d5ed, 1), (0x1d608,
  0x1d621, 1), (0x1d63c, 0x1d655, 1), (0x1d670, 0x1d689, 1), (0x1d6a8, 0x1d6c0, 1), (0x1d6e2,
  0x1d6fa, 1), (0x1d71c, 0x1d734, 1), (0x1d756, 0x1d76e, 1), (0x1d790, 0x1d7a8, 1), (0x1d7ca,
  0x1d7ca, 1), (0x1e900, 0x1e921, 1), (0x1f130, 0x1f149, 1), (0x1f150, 0x1f169, 1), (0x1f170,
  0x1f189, 1)]

/-- Lower case characters. -/
def lowercase : List Span := [
  (0xaa, 0xaa, 1), (0xb5, 0xb5, 1), (0xba, 0xba, 1), (0xdf, 0xf6, 1), (0xf8, 0xff, 1), (0x101,
  0x137, 2), (0x138, 0x148, 2), (0x149, 0x177, 2), (0x17a, 0x17e, 2), (0x17f, 0x180, 1), (0x183,
  0x185, 2), (0x188, 0x188, 1), (0x18c, 0x18d, 1), (0x192, 0x192, 1), (0x195, 0x195, 1), (0x199,
  0x19b, 1), (0x19e, 0x19e, 1), (0x1a1, 0x1a5, 2), (0x1a8, 0x1aa, 2), (0x1ab, 0x1ad, 2), (0x1b0,
  0x1b0, 1), (0x1b4, 0x1b6, 2), (0x1b9, 0x1ba, 1), (0x1bd, 0x1bf, 1), (0x1c6, 0x1c6, 1), (0x1c9,
  0x1c9, 1), (0x1cc, 0x1dc, 2), (0x1dd, 0x1ef, 2), (0x1f0, 0x1f0, 1), (0x1f3, 0x1f5, 2), (0x1f9,
  0x233, 2), (0x234, 0x239, 1), (0x23c, 0x23c, 1), (0x23f, 0x240, 1), (0x242, 0x242, 1), (0x247,
  0x24f, 2), (0x250, 0x293, 1), (0x295, 0x2b8, 1), (0x2c0, 0x2c1, 1), (0x2e0, 0x2e4, 1), (0x345,
  0x345, 1), (0x371, 0x373, 2), (0x377, 0x377, 1), (0x37a, 0x37d, 1), (0x390, 0x390, 1), (0x3ac,
  0x3ce, 1), (0x3d0, 0x3d1, 1), (0x3d5, 0x3d7, 1), (0x3d9, 0x3ef, 2), (0x3f0, 0x3f3, 1), (0x3f5,
  0x3f5, 1), (0x3f8, 0x3f8, 1), (0x3fb, 0x3fc, 1), (0x430, 0x45f, 1), (0x461, 0x481, 2), (0x48b,
  0x4bf, 2), (0x4c2, 0x4ce, 2), (0x4cf, 0x52f, 2), (0x560, 0x588, 1), (0x10d0, 0x10fa, 1),
  (0x10fc, 0x10ff, 1), (0x13f8, 0x13fd, 1), (0x1c80, 0x1c88, 1), (0x1d00, 0x1dbf, 1), (0x1e01,
  0x1e95, 2), (0x1e96, 0x1e9d, 1), (0x1e9f, 0x1eff, 2), (0x1f00, 0x1f07, 1), (0x1f10, 0x1f15,
  1), (0x1f20, 0x1f27, 1), (0x1f30, 0x1f37, 1), (0x1f40, 0x1f45, 1), (0x1f50, 0x1f57, 1),
  (0x1f60, 0x1f67, 1), (0x1f70, 0x1f7d, 1), (0x1f80, 0x1f87, 1), (0x1f90, 0x1f97, 1), (0x1fa0,
  0x1fa7, 1), (0x1fb0, 0x1fb4, 1), (0x1fb6, 0x1fb7, 1), (0x1fbe, 0x1fbe, 1), (0x1fc2, 0x1fc4,
  1), (0x1fc6, 0x1fc7, 1), (0x1fd0, 0x1fd3, 1), (0x1fd6, 0x1fd7, 1), (0x1fe0, 0x1fe7, 1),
  (0x1ff2, 0x1ff4, 1), (0x1ff6, 0x1ff7, 1), (0x2071, 0x2071, 1), (0x207f, 0x207f, 1), (0x2090,
  0x209c, 1), (0x210a, 0x210a, 1), (0x210e, 0x210f, 1), (0x2113, 0x2113, 1), (0x212f, 0x212f,
  1), (0x2134, 0x2134, 1), (0x2139, 0x2139, 1), (0x213c, 0x213d, 1), (0x2146, 0x2149, 1),
  (0x214e, 0x214e, 1), (0x2170, 0x217f, 1), (0x2184, 0x2184, 1), (0x24d0, 0x24e9, 1), (0x2c30,
  0x2c5f, 1), (0x2c61, 0x2c61, 1), (0x2c65, 0x2c66, 1), (0x2c68, 0x2c6c, 2), (0x2c71, 0x2c73,
  2), (0x2c74, 0x2c76, 2), (0x2c77, 0x2c7d, 1), (0x2c81, 0x2ce3, 2), (0x2ce4, 0x2ce4, 1),
  (0x2cec, 0x2cee, 2), (0x2cf3, 0x2cf3, 1), (0x2d00, 0x2d25, 1), (0x2d27, 0x2d27, 1), (0x2d2d,
  0x2d2d, 1), (0xa641, 0xa66d, 2), (0xa681, 0xa69b, 2), (0xa69c, 0xa69d, 1), (0xa723, 0xa72f,
  2), (0xa730, 0xa731, 1), (0xa733, 0xa76f, 2), (0xa770, 0xa778, 1), (0xa77a, 0xa77c, 2),
  (0xa77f, 0xa787, 2), (0xa78c, 0xa78e, 2), (0xa791, 0xa793, 2), (0xa794, 0xa795, 1), (0xa797,
  0xa7a9, 2), (0xa7af, 0xa7af, 1), (0xa7b5, 0xa7c3, 2), (0xa7c8, 0xa7ca, 2), (0xa7d1, 0xa7d9,
  2), (0xa7f2, 0xa7f4, 1), (0xa7f6, 0xa7f8, 2), (0xa7f9, 0xa7fa, 1), (0xab30, 0xab5a, 1),
  (0xab5c, 0xab69, 1), (0xab70, 0xabbf, 1), (0xfb00, 0xfb06, 1), (0xfb13, 0xfb17, 1), (0xff41,
  0xff5a, 1), (0x10428, 0x1044f, 1), (0x104d8, 0x104fb, 1), (0x10597, 0x105a1, 1), (0x105a3,
  0x105b1, 1), (0x105b3, 0x105b9, 1), (0x105bb, 0x105bc, 1), (0x10780, 0x10780, 1), (0x10783,
  0x10785, 1), (0x10787, 0x107b0, 1), (0x107b2, 0x107ba, 1), (0x10cc0, 0x10cf2, 1), (0x118c0,
  0x118df, 1), (0x16e60, 0x16e7f, 1), (0x1d41a, 0x1d433, 1), (0x1d44e, 0x1d454, 1), (0x1d456,
  0x1d467, 1), (0x1d482, 0x1d49b, 1), (0x1d4b6, 0x1d4b9, 1), (0x1d4bb, 0x1d4bd, 2), (0x1d4be,
  0x1d4c3, 1), (0x1d4c5, 0x1d4cf, 1), (0x1d4ea, 0x1d503, 1), (0x1d51e, 0x1d537, 1), (0x1d552,
  0x1d56b, 1), (0x1d586, 0x1d59f, 1), (0x1d5ba, 0x1d5d3, 1), (0x1d5ee, 0x1d607, 1), (0x1d622,
  0x1d63b, 1), (0x1d656, 0x1d66f, 1), (0x1d68a, 0x1d6a5, 1), (0x1d6c2, 0x1d6da, 1), (0x1d6dc,
  0x1d6e1, 1), (0x1d6fc, 0x1d714, 1), (0x1d716, 0x1d71b, 1), (0x1d736, 0x1d74e, 1), (0x1d750,
  0x1d755, 1), (0x1d770, 0x1d788, 1), (0x1d78a, 0x1d78f, 1), (0x1d7aa, 0x1d7c2, 1), (0x1d7c4,
  0x1d7c9, 1), (0x1d7cb, 0x1d7cb, 1), (0x1df00, 0x1df09, 1), (0x1df0b, 0x1df1e, 1), (0x1df25,
  0x1df2a, 1), (0x1e030, 0x1e06d, 1), (0x1e922, 0x1e943, 1)]

/-- Spans of characters whose upper case form lies at a fixed distance. -/
def toUpper : List (Span × Int) := [
  ((0xb5, 0xb5, 1), 743), ((0xe0, 0xf6, 1), -32), ((0xf8, 0xfe, 1), -32), ((0xff, 0xff, 1),
  121), ((0x101, 0x12f, 2), -1), ((0x131, 0x131, 1), -232), ((0x133, 0x137, 2), -1), ((0x13a,
  0x148, 2), -1), ((0x14b, 0x177, 2), -1), ((0x17a, 0x17e, 2), -1), ((0x17f, 0x17f, 1), -300),
  ((0x180, 0x180, 1), 195), ((0x183, 0x185, 2), -1), ((0x188, 0x188, 1), -1), ((0x18c, 0x18c,
  1), -1), ((0x192, 0x192, 1), -1), ((0x195, 0x195, 1), 97), ((0x199, 0x199, 1), -1), ((0x19a,
  0x19a, 1), 163), ((0x19e, 0x19e, 1), 130), ((0x1a1, 0x1a5, 2), -1), ((0x1a8, 0x1a8, 1), -1),
  ((0x1ad, 0x1ad, 1), -1), ((0x1b0, 0x1b0, 1), -1), ((0x1b4, 0x1b6, 2), -1), ((0x1b9, 0x1b9, 1),
  -1), ((0x1bd, 0x1bd, 1), -1), ((0x1bf, 0x1bf, 1), 56), ((0x1c5, 0x1c5, 1), -1), ((0x1c6,
  0x1c6, 1), -2), ((0x1c8, 0x1c8, 1), -1), ((0x1c9, 0x1c9, 1), -2), ((0x1cb, 0x1cb, 1), -1),
  ((0x1cc, 0x1cc, 1), -2), ((0x1ce, 0x1dc, 2), -1), ((0x1dd, 0x1dd, 1), -79), ((0x1df, 0x1ef,
  2), -1), ((0x1f2, 0x1f2, 1), -1), ((0x1f3, 0x1f3, 1), -2), ((0x1f5, 0x1f5, 1), -1), ((0x1f9,
  0x21f, 2), -1), ((0x223, 0x233, 2), -1), ((0x23c, 0x23c, 1), -1), ((0x23f, 0x240, 1), 10815),
  ((0x242, 0x242, 1), -1), ((0x247, 0x24f, 2), -1), ((0x250, 0x250, 1), 10783), ((0x251, 0x251,
  1), 10780), ((0x252, 0x252, 1), 10782), ((0x253, 0x253, 1), -210), ((0x254, 0x254, 1), -206),
  ((0x256, 0x257, 1), -205), ((0x259, 0x259, 1), -202), ((0x25b, 0x25b, 1), -203), ((0x25c,
  0x25c, 1), 42319), ((0x260, 0x260, 1), -205), ((0x261, 0x261, 1), 42315), ((0x263, 0x263, 1),
  -207), ((0x265, 0x265, 1), 42280), ((0x266, 0x266, 1), 42308), ((0x268, 0x268, 1), -209),
  ((0x269, 0x269, 1), -211), ((0x26a, 0x26a, 1), 42308), ((0x26b, 0x26b, 1), 10743), ((0x26c,
  0x26c, 1), 42305), ((0x26f, 0x26f, 1), -211), ((0x271, 0x271, 1), 10749), ((0x272, 0x272, 1),
  -213), ((0x275, 0x275, 1), -214), ((0x27d, 0x27d, 1), 10727), ((0x280, 0x280, 1), -218),
  ((0x282, 0x282, 1), 42307), ((0x283, 0x283, 1), -218), ((0x287, 0x287, 1), 42282), ((0x288,
  0x288, 1), -218), ((0x289, 0x289, 1), -69), ((0x28a, 0x28b, 1), -217), ((0x28c, 0x28c, 1),
  -71), ((0x292, 0x292, 1), -219), ((0x29d, 0x29d, 1), 42261), ((0x29e, 0x29e, 1), 42258),
  ((0x345, 0x345, 1), 84), ((0x371, 0x373, 2), -1), ((0x377, 0x377, 1), -1), ((0x37b, 0x37d, 1),
  130), ((0x3ac, 0x3ac, 1), -38), ((0x3ad, 0x3af, 1), -37), ((0x3b1, 0x3c1, 1), -32), ((0x3c2,
  0x3c2, 1), -31), ((0x3c3, 0x3cb, 1), -32), ((0x3cc, 0x3cc, 1), -64), ((0x3cd, 0x3ce, 1), -63),
  ((0x3d0, 0x3d0, 1), -62), ((0x3d1, 0x3d1, 1), -57), ((0x3d5, 0x3d5, 1), -47), ((0x3d6, 0x3d6,
  1), -54), ((0x3d7, 0x3d7, 1), -8), ((0x3d9, 0x3ef, 2), -1), ((0x3f0, 0x3f0, 1), -86), ((0x3f1,
  0x3f1, 1), -80), ((0x3f2, 0x3f2, 1), 7), ((0x3f3, 0x3f3, 1), -116), ((0x3f5, 0x3f5, 1), -96),
  ((0x3f8, 0x3f8, 1), -1), ((0x3fb, 0x3fb, 1), -1), ((0x430, 0x44f, 1), -32), ((0x450, 0x45f,
  1), -80), ((0x461, 0x481, 2), -1), ((0x48b, 0x4bf, 2), -1), ((0x4c2, 0x4ce, 2), -1), ((0x4cf,
  0x4cf, 1), -15), ((0x4d1, 0x52f, 2), -1), ((0x561, 0x586, 1), -48), ((0x10d0, 0x10fa, 1),
  3008), ((0x10fd, 0x10ff, 1), 3008), ((0x13f8, 0x13fd, 1), -8), ((0x1c80, 0x1c80, 1), -6254),
  ((0x1c81, 0x1c81, 1), -6253), ((0x1c82, 0x1c82, 1), -6244), ((0x1c83, 0x1c84, 1), -6242),
  ((0x1c85, 0x1c85, 1), -6243), ((0x1c86, 0x1c86, 1), -6236), ((0x1c87, 0x1c87, 1), -6181),
  ((0x1c88, 0x1c88, 1), 35266), ((0x1d79, 0x1d79, 1), 35332), ((0x1d7d, 0x1d7d, 1), 3814),
  ((0x1d8e, 0x1d8e, 1), 35384), ((0x1e01, 0x1e95, 2), -1), ((0x1e9b, 0x1e9b, 1), -59), ((0x1ea1,
  0x1eff, 2), -1), ((0x1f00, 0x1f07, 1), 8), ((0x1f10, 0x1f15, 1), 8), ((0x1f20, 0x1f27, 1), 8),
  ((0x1f30, 0x1f37, 1), 8), ((0x1f40, 0x1f45, 1), 8), ((0x1f51, 0x1f57, 2), 8), ((0x1f60,
  0x1f67, 1), 8), ((0x1f70, 0x1f71, 1), 74), ((0x1f72, 0x1f75, 1), 86), ((0x1f76, 0x1f77, 1),
  100), ((0x1f78, 0x1f79, 1), 128), ((0x1f7a, 0x1f7b, 1), 112), ((0x1f7c, 0x1f7d, 1), 126),
  ((0x1fb0, 0x1fb1, 1), 8), ((0x1fbe, 0x1fbe, 1), -7205), ((0x1fd0, 0x1fd1, 1), 8), ((0x1fe0,
  0x1fe1, 1), 8), ((0x1fe5, 0x1fe5, 1), 7), ((0x214e, 0x214e, 1), -28), ((0x2170, 0x217f, 1),
  -16), ((0x2184, 0x2184, 1), -1), ((0x24d0, 0x24e9, 1), -26), ((0x2c30, 0x2c5f, 1), -48),
  ((0x2c61, 0x2c61, 1), -1), ((0x2c65, 0x2c65, 1), -10795), ((0x2c66, 0x2c66, 1), -10792),
  ((0x2c68, 0x2c6c, 2), -1), ((0x2c73, 0x2c73, 1), -1), ((0x2c76, 0x2c76, 1), -1), ((0x2c81,
  0x2ce3, 2), -1), ((0x2cec, 0x2cee, 2), -1), ((0x2cf3, 0x2cf3, 1), -1), ((0x2d00, 0x2d25, 1),
  -7264), ((0x2d27, 0x2d27, 1), -7264), ((0x2d2d, 0x2d2d, 1), -7264), ((0xa641, 0xa66d, 2), -1),
  ((0xa681, 0xa69b, 2), -1), ((0xa723, 0xa72f, 2), -1), ((0xa733, 0xa76f, 2), -1), ((0xa77a,
  0xa77c, 2), -1), ((0xa77f, 0xa787, 2), -1), ((0xa78c, 0xa78c, 1), -1), ((0xa791, 0xa793, 2),
  -1), ((0xa794, 0xa794, 1), 48), ((0xa797, 0xa7a9, 2), -1), ((0xa7b5, 0xa7c3, 2), -1),
  ((0xa7c8, 0xa7ca, 2), -1), ((0xa7d1, 0xa7d1, 1), -1), ((0xa7d7, 0xa7d9, 2), -1), ((0xa7f6,
  0xa7f6, 1), -1), ((0xab53, 0xab53, 1), -928), ((0xab70, 0xabbf, 1), -38864), ((0xff41, 0xff5a,
  1), -32), ((0x10428, 0x1044f, 1), -40), ((0x104d8, 0x104fb, 1), -40), ((0x10597, 0x105a1, 1),
  -39), ((0x105a3, 0x105b1, 1), -39), ((0x105b3, 0x105b9, 1), -39), ((0x105bb, 0x105bc, 1),
  -39), ((0x10cc0, 0x10cf2, 1), -64), ((0x118c0, 0x118df, 1), -32), ((0x16e60, 0x16e7f, 1),
  -32), ((0x1e922, 0x1e943, 1), -34)]

/-- Characters whose upper case form has several characters. -/
def toUpperLong : List (Nat × List Nat) := [
  (0xdf, [0x53, 0x53]), (0x149, [0x2bc, 0x4e]), (0x1f0, [0x4a, 0x30c]), (0x390, [0x399, 0x308,
  0x301]), (0x3b0, [0x3a5, 0x308, 0x301]), (0x587, [0x535, 0x552]), (0x1e96, [0x48, 0x331]),
  (0x1e97, [0x54, 0x308]), (0x1e98, [0x57, 0x30a]), (0x1e99, [0x59, 0x30a]), (0x1e9a, [0x41,
  0x2be]), (0x1f50, [0x3a5, 0x313]), (0x1f52, [0x3a5, 0x313, 0x300]), (0x1f54, [0x3a5, 0x313,
  0x301]), (0x1f56, [0x3a5, 0x313, 0x342]), (0x1f80, [0x1f08, 0x399]), (0x1f81, [0x1f09,
  0x399]), (0x1f82, [0x1f0a, 0x399]), (0x1f83, [0x1f0b, 0x399]), (0x1f84, [0x1f0c, 0x399]),
  (0x1f85, [0x1f0d, 0x399]), (0x1f86, [0x1f0e, 0x399]), (0x1f87, [0x1f0f, 0x399]), (0x1f88,
  [0x1f08, 0x399]), (0x1f89, [0x1f09, 0x399]), (0x1f8a, [0x1f0a, 0x399]), (0x1f8b, [0x1f0b,
  0x399]), (0x1f8c, [0x1f0c, 0x399]), (0x1f8d, [0x1f0d, 0x399]), (0x1f8e, [0x1f0e, 0x399]),
  (0x1f8f, [0x1f0f, 0x399]), (0x1f90, [0x1f28, 0x399]), (0x1f91, [0x1f29, 0x399]), (0x1f92,
  [0x1f2a, 0x399]), (0x1f93, [0x1f2b, 0x399]), (0x1f94, [0x1f2c, 0x399]), (0x1f95, [0x1f2d,
  0x399]), (0x1f96, [0x1f2e, 0x399]), (0x1f97, [0x1f2f, 0x399]), (0x1f98, [0x1f28, 0x399]),
  (0x1f99, [0x1f29, 0x399]), (0x1f9a, [0x1f2a, 0x399]), (0x1f9b, [0x1f2b, 0x399]), (0x1f9c,
  [0x1f2c, 0x399]), (0x1f9d, [0x1f2d, 0x399]), (0x1f9e, [0x1f2e, 0x399]), (0x1f9f, [0x1f2f,
  0x399]), (0x1fa0, [0x1f68, 0x399]), (0x1fa1, [0x1f69, 0x399]), (0x1fa2, [0x1f6a, 0x399]),
  (0x1fa3, [0x1f6b, 0x399]), (0x1fa4, [0x1f6c, 0x399]), (0x1fa5, [0x1f6d, 0x399]), (0x1fa6,
  [0x1f6e, 0x399]), (0x1fa7, [0x1f6f, 0x399]), (0x1fa8, [0x1f68, 0x399]), (0x1fa9, [0x1f69,
  0x399]), (0x1faa, [0x1f6a, 0x399]), (0x1fab, [0x1f6b, 0x399]), (0x1fac, [0x1f6c, 0x399]),
  (0x1fad, [0x1f6d, 0x399]), (0x1fae, [0x1f6e, 0x399]), (0x1faf, [0x1f6f, 0x399]), (0x1fb2,
  [0x1fba, 0x399]), (0x1fb3, [0x391, 0x399]), (0x1fb4, [0x386, 0x399]), (0x1fb6, [0x391,
  0x342]), (0x1fb7, [0x391, 0x342, 0x399]), (0x1fbc, [0x391, 0x399]), (0x1fc2, [0x1fca, 0x399]),
  (0x1fc3, [0x397, 0x399]), (0x1fc4, [0x389, 0x399]), (0x1fc6, [0x397, 0x342]), (0x1fc7, [0x397,
  0x342, 0x399]), (0x1fcc, [0x397, 0x399]), (0x1fd2, [0x399, 0x308, 0x300]), (0x1fd3, [0x399,
  0x308, 0x301]), (0x1fd6, [0x399, 0x342]), (0x1fd7, [0x399, 0x308, 0x342]), (0x1fe2, [0x3a5,
  0x308, 0x300]), (0x1fe3, [0x3a5, 0x308, 0x301]), (0x1fe4, [0x3a1, 0x313]), (0x1fe6, [0x3a5,
  0x342]), (0x1fe7, [0x3a5, 0x308, 0x342]), (0x1ff2, [0x1ffa, 0x399]), (0x1ff3, [0x3a9, 0x399]),
  (0x1ff4, [0x38f, 0x399]), (0x1ff6, [0x3a9, 0x342]), (0x1ff7, [0x3a9, 0x342, 0x399]), (0x1ffc,
  [0x3a9, 0x399]), (0xfb00, [0x46, 0x46]), (0xfb01, [0x46, 0x49]), (0xfb02, [0x46, 0x4c]),
  (0xfb03, [0x46, 0x46, 0x49]), (0xfb04, [0x46, 0x46, 0x4c]), (0xfb05, [0x53, 0x54]), (0xfb06,
  [0x53, 0x54]), (0xfb13, [0x544, 0x546]), (0xfb14, [0x544, 0x535]), (0xfb15, [0x544, 0x53b]),
  (0xfb16, [0x54e, 0x546]), (0xfb17, [0x544, 0x53d])]

/-- Spans of characters whose lower case form lies at a fixed distance. -/
def toLower : List (Span × Int) := [
  ((0xc0, 0xd6, 1), 32), ((0xd8, 0xde, 1), 32), ((0x100, 0x12e, 2), 1), ((0x132, 0x136, 2), 1),
  ((0x139, 0x147, 2), 1), ((0x14a, 0x176, 2), 1), ((0x178, 0x178, 1), -121), ((0x179, 0x17d, 2),
  1), ((0x181, 0x181, 1), 210), ((0x182, 0x184, 2), 1), ((0x186, 0x186, 1), 206), ((0x187,
  0x187, 1), 1), ((0x189, 0x18a, 1), 205), ((0x18b, 0x18b, 1), 1), ((0x18e, 0x18e, 1), 79),
  ((0x18f, 0x18f, 1), 202), ((0x190, 0x190, 1), 203), ((0x191, 0x191, 1), 1), ((0x193, 0x193,
  1), 205), ((0x194, 0x194, 1), 207), ((0x196, 0x196, 1), 211), ((0x197, 0x197, 1), 209),
  ((0x198, 0x198, 1), 1), ((0x19c, 0x19c, 1), 211), ((0x19d, 0x19d, 1), 213), ((0x19f, 0x19f,
  1), 214), ((0x1a0, 0x1a4, 2), 1), ((0x1a6, 0x1a6, 1), 218), ((0x1a7, 0x1a7, 1), 1), ((0x1a9,
  0x1a9, 1), 218), ((0x1ac, 0x1ac, 1), 1), ((0x1ae, 0x1ae, 1), 218), ((0x1af, 0x1af, 1), 1),
  ((0x1b1, 0x1b2, 1), 217), ((0x1b3, 0x1b5, 2), 1), ((0x1b7, 0x1b7, 1), 219), ((0x1b8, 0x1b8,
  1), 1), ((0x1bc, 0x1bc, 1), 1), ((0x1c4, 0x1c4, 1), 2), ((0x1c5, 0x1c5, 1), 1), ((0x1c7,
  0x1c7, 1), 2), ((0x1c8, 0x1c8, 1), 1), ((0x1ca, 0x1ca, 1), 2), ((0x1cb, 0x1db, 2), 1),
  ((0x1de, 0x1ee, 2), 1), ((0x1f1, 0x1f1, 1), 2), ((0x1f2, 0x1f4, 2), 1), ((0x1f6, 0x1f6, 1),
  -97), ((0x1f7, 0x1f7, 1), -56), ((0x1f8, 0x21e, 2), 1), ((0x220, 0x220, 1), -130), ((0x222,
  0x232, 2), 1), ((0x23a, 0x23a, 1), 10795), ((0x23b, 0x23b, 1), 1), ((0x23d, 0x23d, 1), -163),
  ((0x23e, 0x23e, 1), 10792), ((0x241, 0x241, 1), 1), ((0x243, 0x243, 1), -195), ((0x244, 0x244,
  1), 69), ((0x245, 0x245, 1), 71), ((0x246, 0x24e, 2), 1), ((0x370, 0x372, 2), 1), ((0x376,
  0x376, 1), 1), ((0x37f, 0x37f, 1), 116), ((0x386, 0x386, 1), 38), ((0x388, 0x38a, 1), 37),
  ((0x38c, 0x38c, 1), 64), ((0x38e, 0x38f, 1), 63), ((0x391, 0x3a1, 1), 32), ((0x3a3, 0x3ab, 1),
  32), ((0x3cf, 0x3cf, 1), 8), ((0x3d8, 0x3ee, 2), 1), ((0x3f4, 0x3f4, 1), -60), ((0x3f7, 0x3f7,
  1), 1), ((0x3f9, 0x3f9, 1), -7), ((0x3fa, 0x3fa, 1), 1), ((0x3fd, 0x3ff, 1), -130), ((0x400,
  0x40f, 1), 80), ((0x410, 0x42f, 1), 32), ((0x460, 0x480, 2), 1), ((0x48a, 0x4be, 2), 1),
  ((0x4c0, 0x4c0, 1), 15), ((0x4c1, 0x4cd, 2), 1), ((0x4d0, 0x52e, 2), 1), ((0x531, 0x556, 1),
  48), ((0x10a0, 0x10c5, 1), 7264), ((0x10c7, 0x10c7, 1), 7264), ((0x10cd, 0x10cd, 1), 7264),
  ((0x13a0, 0x13ef, 1), 38864), ((0x13f0, 0x13f5, 1), 8), ((0x1c90, 0x1cba, 1), -3008),
  ((0x1cbd, 0x1cbf, 1), -3008), ((0x1e00, 0x1e94, 2), 1), ((0x1e9e, 0x1e9e, 1), -7615),
  ((0x1ea0, 0x1efe, 2), 1), ((0x1f08, 0x1f0f, 1), -8), ((0x1f18, 0x1f1d, 1), -8), ((0x1f28,
  0x1f2f, 1), -8), ((0x1f38, 0x1f3f, 1), -8), ((0x1f48, 0x1f4d, 1), -8), ((0x1f59, 0x1f5f, 2),
  -8), ((0x1f68, 0x1f6f, 1), -8), ((0x1f88, 0x1f8f, 1), -8), ((0x1f98, 0x1f9f, 1), -8),
  ((0x1fa8, 0x1faf, 1), -8), ((0x1fb8, 0x1fb9, 1), -8), ((0x1fba, 0x1fbb, 1), -74), ((0x1fbc,
  0x1fbc, 1), -9), ((0x1fc8, 0x1fcb, 1), -86), ((0x1fcc, 0x1fcc, 1), -9), ((0x1fd8, 0x1fd9, 1),
  -8), ((0x1fda, 0x1fdb, 1), -100), ((0x1fe8, 0x1fe9, 1), -8), ((0x1fea, 0x1feb, 1), -112),
  ((0x1fec, 0x1fec, 1), -7), ((0x1ff8, 0x1ff9, 1), -128), ((0x1ffa, 0x1ffb, 1), -126), ((0x1ffc,
  0x1ffc, 1), -9), ((0x2126, 0x2126, 1), -7517), ((0x212a, 0x212a, 1), -8383), ((0x212b, 0x212b,
  1), -8262), ((0x2132, 0x2132, 1), 28), ((0x2160, 0x216f, 1), 16), ((0x2183, 0x2183, 1), 1),
  ((0x24b6, 0x24cf, 1), 26), ((0x2c00, 0x2c2f, 1), 48), ((0x2c60, 0x2c60, 1), 1), ((0x2c62,
  0x2c62, 1), -10743), ((0x2c63, 0x2c63, 1), -3814), ((0x2c64, 0x2c64, 1), -10727), ((0x2c67,
  0x2c6b, 2), 1), ((0x2c6d, 0x2c6d, 1), -10780), ((0x2c6e, 0x2c6e, 1), -10749), ((0x2c6f,
  0x2c6f, 1), -10783), ((0x2c70, 0x2c70, 1), -10782), ((0x2c72, 0x2c72, 1), 1), ((0x2c75,
  0x2c75, 1), 1), ((0x2c7e, 0x2c7f, 1), -10815), ((0x2c80, 0x2ce2, 2), 1), ((0x2ceb, 0x2ced, 2),
  1), ((0x2cf2, 0x2cf2, 1), 1), ((0xa640, 0xa66c, 2), 1), ((0xa680, 0xa69a, 2), 1), ((0xa722,
  0xa72e, 2), 1), ((0xa732, 0xa76e, 2), 1), ((0xa779, 0xa77b, 2), 1), ((0xa77d, 0xa77d, 1),
  -35332), ((0xa77e, 0xa786, 2), 1), ((0xa78b, 0xa78b, 1), 1), ((0xa78d, 0xa78d, 1), -42280),
  ((0xa790, 0xa792, 2), 1), ((0xa796, 0xa7a8, 2), 1), ((0xa7aa, 0xa7aa, 1), -42308), ((0xa7ab,
  0xa7ab, 1), -42319), ((0xa7ac, 0xa7ac, 1), -42315), ((0xa7ad, 0xa7ad, 1), -42305), ((0xa7ae,
  0xa7ae, 1), -42308), ((0xa7b0, 0xa7b0, 1), -42258), ((0xa7b1, 0xa7b1, 1), -42282), ((0xa7b2,
  0xa7b2, 1), -42261), ((0xa7b3, 0xa7b3, 1), 928), ((0xa7b4, 0xa7c2, 2), 1), ((0xa7c4, 0xa7c4,
  1), -48), ((0xa7c5, 0xa7c5, 1), -42307), ((0xa7c6, 0xa7c6, 1), -35384), ((0xa7c7, 0xa7c9, 2),
  1), ((0xa7d0, 0xa7d0, 1), 1), ((0xa7d6, 0xa7d8, 2), 1), ((0xa7f5, 0xa7f5, 1), 1), ((0xff21,
  0xff3a, 1), 32), ((0x10400, 0x10427, 1), 40), ((0x104b0, 0x104d3, 1), 40), ((0x10570, 0x1057a,
  1), 39), ((0x1057c, 0x1058a, 1), 39), ((0x1058c, 0x10592, 1), 39), ((0x10594, 0x10595, 1),
  39), ((0x10c80, 0x10cb2, 1), 64), ((0x118a0, 0x118bf, 1), 32), ((0x16e40, 0x16e5f, 1), 32),
  ((0x1e900, 0x1e921, 1), 34)]

/-- Characters whose lower case form has several characters. -/
def toLowerLong : List (Nat × List Nat) := [
  (0x130, [0x69, 0x307])]

/-- Nonspacing and enclosing marks. -/
def combining : List Span := [
  (0x300, 0x36f, 1), (0x483, 0x489, 1), (0x591, 0x5bd, 1), (0x5bf, 0x5c1, 2), (0x5c2, 0x5c4, 2),
  (0x5c5, 0x5c7, 2), (0x610, 0x61a, 1), (0x64b, 0x65f, 1), (0x670, 0x670, 1), (0x6d6, 0x6dc, 1),
  (0x6df, 0x6e4, 1), (0x6e7, 0x6e8, 1), (0x6ea, 0x6ed, 1), (0x711, 0x711, 1), (0x730, 0x74a, 1),
  (0x7a6, 0x7b0, 1), (0x7eb, 0x7f3, 1), (0x7fd, 0x7fd, 1), (0x816, 0x819, 1), (0x81b, 0x823, 1),
  (0x825, 0x827, 1), (0x829, 0x82d, 1), (0x859, 0x85b, 1), (0x898, 0x89f, 1), (0x8ca, 0x8e1, 1),
  (0x8e3, 0x902, 1), (0x93a, 0x93c, 2), (0x941, 0x948, 1), (0x94d, 0x94d, 1), (0x951, 0x957, 1),
  (0x962, 0x963, 1), (0x981, 0x981, 1), (0x9bc, 0x9bc, 1), (0x9c1, 0x9c4, 1), (0x9cd, 0x9cd, 1),
  (0x9e2, 0x9e3, 1), (0x9fe, 0x9fe, 1), (0xa01, 0xa02, 1), (0xa3c, 0xa3c, 1), (0xa41, 0xa42, 1),
  (0xa47, 0xa48, 1), (0xa4b, 0xa4d, 1), (0xa51, 0xa51, 1), (0xa70, 0xa71, 1), (0xa75, 0xa75, 1),
  (0xa81, 0xa82, 1), (0xabc, 0xabc, 1), (0xac1, 0xac5, 1), (0xac7, 0xac8, 1), (0xacd, 0xacd, 1),
  (0xae2, 0xae3, 1), (0xafa, 0xaff, 1), (0xb01, 0xb01, 1), (0xb3c, 0xb3c, 1), (0xb3f, 0xb41, 2),
  (0xb42, 0xb44, 1), (0xb4d, 0xb4d, 1), (0xb55, 0xb56, 1), (0xb62, 0xb63, 1), (0xb82, 0xb82, 1),
  (0xbc0, 0xbc0, 1), (0xbcd, 0xbcd, 1), (0xc00, 0xc00, 1), (0xc04, 0xc04, 1), (0xc3c, 0xc3e, 2),
  (0xc3f, 0xc40, 1), (0xc46, 0xc48, 1), (0xc4a, 0xc4d, 1), (0xc55, 0xc56, 1), (0xc62, 0xc63, 1),
  (0xc81, 0xc81, 1), (0xcbc, 0xcbc, 1), (0xcbf, 0xcbf, 1), (0xcc6, 0xcc6, 1), (0xccc, 0xccd, 1),
  (0xce2, 0xce3, 1), (0xd00, 0xd01, 1), (0xd3b, 0xd3c, 1), (0xd41, 0xd44, 1), (0xd4d, 0xd4d, 1),
  (0xd62, 0xd63, 1), (0xd81, 0xd81, 1), (0xdca, 0xdca, 1), (0xdd2, 0xdd4, 1), (0xdd6, 0xdd6, 1),
  (0xe31, 0xe31, 1), (0xe34, 0xe3a, 1), (0xe47, 0xe4e, 1), (0xeb1, 0xeb1, 1), (0xeb4, 0xebc, 1),
  (0xec8, 0xece, 1), (0xf18, 0xf19, 1), (0xf35, 0xf39, 2), (0xf71, 0xf7e, 1), (0xf80, 0xf84, 1),
  (0xf86, 0xf87, 1), (0xf8d, 0xf97, 1), (0xf99, 0xfbc, 1), (0xfc6, 0xfc6, 1), (0x102d, 0x1030,
  1), (0x1032, 0x1037, 1), (0x1039, 0x103a, 1), (0x103d, 0x103e, 1), (0x1058, 0x1059, 1),
  (0x105e, 0x1060, 1), (0x1071, 0x1074, 1), (0x1082, 0x1082, 1), (0x1085, 0x1086, 1), (0x108d,
  0x108d, 1), (0x109d, 0x109d, 1), (0x135d, 0x135f, 1), (0x1712, 0x1714, 1), (0x1732, 0x1733,
  1), (0x1752, 0x1753, 1), (0x1772, 0x1773, 1), (0x17b4, 0x17b5, 1), (0x17b7, 0x17bd, 1),
  (0x17c6, 0x17c6, 1), (0x17c9, 0x17d3, 1), (0x17dd, 0x17dd, 1), (0x180b, 0x180d, 1), (0x180f,
  0x180f, 1), (0x1885, 0x1886, 1), (0x18a9, 0x18a9, 1), (0x1920, 0x1922, 1), (0x1927, 0x1928,
  1), (0x1932, 0x1932, 1), (0x1939, 0x193b, 1), (0x1a17, 0x1a18, 1), (0x1a1b, 0x1a1b, 1),
  (0x1a56, 0x1a58, 2), (0x1a59, 0x1a5e, 1), (0x1a60, 0x1a62, 2), (0x1a65, 0x1a6c, 1), (0x1a73,
  0x1a7c, 1), (0x1a7f, 0x1a7f, 1), (0x1ab0, 0x1ace, 1), (0x1b00, 0x1b03, 1), (0x1b34, 0x1b36,
  2), (0x1b37, 0x1b3a, 1), (0x1b3c, 0x1b3c, 1), (0x1b42, 0x1b42, 1), (0x1b6b, 0x1b73, 1),
  (0x1b80, 0x1b81, 1), (0x1ba2, 0x1ba5, 1), (0x1ba8, 0x1ba9, 1), (0x1bab, 0x1bad, 1), (0x1be6,
  0x1be8, 2), (0x1be9, 0x1be9, 1), (0x1bed, 0x1bef, 2), (0x1bf0, 0x1bf1, 1), (0x1c2c, 0x1c33,
  1), (0x1c36, 0x1c37, 1), (0x1cd0, 0x1cd2, 1), (0x1cd4, 0x1ce0, 1), (0x1ce2, 0x1ce8, 1),
  (0x1ced, 0x1ced, 1), (0x1cf4, 0x1cf4, 1), (0x1cf8, 0x1cf9, 1), (0x1dc0, 0x1dff, 1), (0x20d0,
  0x20f0, 1), (0x2cef, 0x2cf1, 1), (0x2d7f, 0x2d7f, 1), (0x2de0, 0x2dff, 1), (0x302a, 0x302d,
  1), (0x3099, 0x309a, 1), (0xa66f, 0xa672, 1), (0xa674, 0xa67d, 1), (0xa69e, 0xa69f, 1),
  (0xa6f0, 0xa6f1, 1), (0xa802, 0xa802, 1), (0xa806, 0xa806, 1), (0xa80b, 0xa80b, 1), (0xa825,
  0xa826, 1), (0xa82c, 0xa82c, 1), (0xa8c4, 0xa8c5, 1), (0xa8e0, 0xa8f1, 1), (0xa8ff, 0xa8ff,
  1), (0xa926, 0xa92d, 1), (0xa947, 0xa951, 1), (0xa980, 0xa982, 1), (0xa9b3, 0xa9b3, 1),
  (0xa9b6, 0xa9b9, 1), (0xa9bc, 0xa9bd, 1), (0xa9e5, 0xa9e5, 1), (0xaa29, 0xaa2e, 1), (0xaa31,
  0xaa32, 1), (0xaa35, 0xaa36, 1), (0xaa43, 0xaa43, 1), (0xaa4c, 0xaa4c, 1), (0xaa7c, 0xaa7c,
  1), (0xaab0, 0xaab2, 2), (0xaab3, 0xaab4, 1), (0xaab7, 0xaab8, 1), (0xaabe, 0xaabf, 1),
  (0xaac1, 0xaac1, 1), (0xaaec, 0xaaed, 1), (0xaaf6, 0xaaf6, 1), (0xabe5, 0xabe5, 1), (0xabe8,
  0xabe8, 1), (0xabed, 0xabed, 1), (0xfb1e, 0xfb1e, 1), (0xfe00, 0xfe0f, 1), (0xfe20, 0xfe2f,
  1), (0x101fd, 0x101fd, 1), (0x102e0, 0x102e0, 1), (0x10376, 0x1037a, 1), (0x10a01, 0x10a03,
  1), (0x10a05, 0x10a06, 1), (0x10a0c, 0x10a0f, 1), (0x10a38, 0x10a3a, 1), (0x10a3f, 0x10a3f,
  1), (0x10ae5, 0x10ae6, 1), (0x10d24, 0x10d27, 1), (0x10eab, 0x10eac, 1), (0x10efd, 0x10eff,
  1), (0x10f46, 0x10f50, 1), (0x10f82, 0x10f85, 1), (0x11001, 0x11001, 1), (0x11038, 0x11046,
  1), (0x11070, 0x11070, 1), (0x11073, 0x11074, 1), (0x1107f, 0x11081, 1), (0x110b3, 0x110b6,
  1), (0x110b9, 0x110ba, 1), (0x110c2, 0x110c2, 1), (0x11100, 0x11102, 1), (0x11127, 0x1112b,
  1), (0x1112d, 0x11134, 1), (0x11173, 0x11173, 1), (0x11180, 0x11181, 1), (0x111b6, 0x111be,
  1), (0x111c9, 0x111cc, 1), (0x111cf, 0x111cf, 1), (0x1122f, 0x11231, 1), (0x11234, 0x11236,
  2), (0x11237, 0x11237, 1), (0x1123e, 0x1123e, 1), (0x11241, 0x11241, 1), (0x112df, 0x112df,
  1), (0x112e3, 0x112ea, 1), (0x11300, 0x11301, 1), (0x1133b, 0x1133c, 1), (0x11340, 0x11340,
  1), (0x11366, 0x1136c, 1), (0x11370, 0x11374, 1), (0x11438, 0x1143f, 1), (0x11442, 0x11444,
  1), (0x11446, 0x11446, 1), (0x1145e, 0x1145e, 1), (0x114b3, 0x114b8, 1), (0x114ba, 0x114ba,
  1), (0x114bf, 0x114c0, 1), (0x114c2, 0x114c3, 1), (0x115b2, 0x115b5, 1), (0x115bc, 0x115bd,
  1), (0x115bf, 0x115c0, 1), (0x115dc, 0x115dd, 1), (0x11633, 0x1163a, 1), (0x1163d, 0x1163f,
  2), (0x11640, 0x11640, 1), (0x116ab, 0x116ad, 2), (0x116b0, 0x116b5, 1), (0x116b7, 0x116b7,
  1), (0x1171d, 0x1171f, 1), (0x11722, 0x11725, 1), (0x11727, 0x1172b, 1), (0x1182f, 0x11837,
  1), (0x11839, 0x1183a, 1), (0x1193b, 0x1193c, 1), (0x1193e, 0x1193e, 1), (0x11943, 0x11943,
  1), (0x119d4, 0x119d7, 1), (0x119da, 0x119db, 1), (0x119e0, 0x119e0, 1), (0x11a01, 0x11a0a,
  1), (0x11a33, 0x11a38, 1), (0x11a3b, 0x11a3e, 1), (0x11a47, 0x11a47, 1), (0x11a51, 0x11a56,
  1), (0x11a59, 0x11a5b, 1), (0x11a8a, 0x11a96, 1), (0x11a98, 0x11a99, 1), (0x11c30, 0x11c36,
  1), (0x11c38, 0x11c3d, 1), (0x11c3f, 0x11c3f, 1), (0x11c92, 0x11ca7, 1), (0x11caa, 0x11cb0,
  1), (0x11cb2, 0x11cb3, 1), (0x11cb5, 0x11cb6, 1), (0x11d31, 0x11d36, 1), (0x11d3a, 0x11d3c,
  2), (0x11d3d, 0x11d3f, 2), (0x11d40, 0x11d45, 1), (0x11d47, 0x11d47, 1), (0x11d90, 0x11d91,
  1), (0x11d95, 0x11d97, 2), (0x11ef3, 0x11ef4, 1), (0x11f00, 0x11f01, 1), (0x11f36, 0x11f3a,
  1), (0x11f40, 0x11f42, 2), (0x13440, 0x13440, 1), (0x13447, 0x13455, 1), (0x16af0, 0x16af4,
  1), (0x16b30, 0x16b36, 1), (0x16f4f, 0x16f4f, 1), (0x16f8f, 0x16f92, 1), (0x16fe4, 0x16fe4,
  1), (0x1bc9d, 0x1bc9e, 1), (0x1cf00, 0x1cf2d, 1), (0x1cf30, 0x1cf46, 1), (0x1d167, 0x1d169,
  1), (0x1d17b, 0x1d182, 1), (0x1d185, 0x1d18b, 1), (0x1d1aa, 0x1d1ad, 1), (0x1d242, 0x1d244,
  1), (0x1da00, 0x1da36, 1), (0x1da3b, 0x1da6c, 1), (0x1da75, 0x1da75, 1), (0x1da84, 0x1da84,
  1), (0x1da9b, 0x1da9f, 1), (0x1daa1, 0x1daaf, 1), (0x1e000, 0x1e006, 1), (0x1e008, 0x1e018,
  1), (0x1e01b, 0x1e021, 1), (0x1e023, 0x1e024, 1), (0x1e026, 0x1e02a, 1), (0x1e08f, 0x1e08f,
  1), (0x1e130, 0x1e136, 1), (0x1e2ae, 0x1e2ae, 1), (0x1e2ec, 0x1e2ef, 1), (0x1e4ec, 0x1e4ef,
  1), (0x1e8d0, 0x1e8d6, 1), (0x1e944, 0x1e94a, 1), (0xe0100, 0xe01ef, 1)]

/-- Control, format, private, unassigned and separator characters. -/
def invisible : List Span := [
  (0x80, 0xa0, 1), (0xad, 0xad, 1), (0x378, 0x379, 1), (0x380, 0x383, 1), (0x38b, 0x38d, 2),
  (0x3a2, 0x3a2, 1), (0x530, 0x530, 1), (0x557, 0x558, 1), (0x58b, 0x58c, 1), (0x590, 0x590, 1),
  (0x5c8, 0x5cf, 1), (0x5eb, 0x5ee, 1), (0x5f5, 0x605, 1), (0x61c, 0x61c, 1), (0x6dd, 0x6dd, 1),
  (0x70e, 0x70f, 1), (0x74b, 0x74c, 1), (0x7b2, 0x7bf, 1), (0x7fb, 0x7fc, 1), (0x82e, 0x82f, 1),
  (0x83f, 0x83f, 1), (0x85c, 0x85d, 1), (0x85f, 0x85f, 1), (0x86b, 0x86f, 1), (0x88f, 0x897, 1),
  (0x8e2, 0x8e2, 1), (0x984, 0x984, 1), (0x98d, 0x98e, 1), (0x991, 0x992, 1), (0x9a9, 0x9a9, 1),
  (0x9b1, 0x9b3, 2), (0x9b4, 0x9b5, 1), (0x9ba, 0x9bb, 1), (0x9c5, 0x9c6, 1), (0x9c9, 0x9ca, 1),
  (0x9cf, 0x9d6, 1), (0x9d8, 0x9db, 1), (0x9de, 0x9de, 1), (0x9e4, 0x9e5, 1), (0x9ff, 0xa00, 1),
  (0xa04, 0xa04, 1), (0xa0b, 0xa0e, 1), (0xa11, 0xa12, 1), (0xa29, 0xa29, 1), (0xa31, 0xa31, 1),
  (0xa34, 0xa34, 1), (0xa37, 0xa37, 1), (0xa3a, 0xa3b, 1), (0xa3d, 0xa3d, 1), (0xa43, 0xa46, 1),
  (0xa49, 0xa4a, 1), (0xa4e, 0xa50, 1), (0xa52, 0xa58, 1), (0xa5d, 0xa5f, 2), (0xa60, 0xa65, 1),
  (0xa77, 0xa80, 1), (0xa84, 0xa84, 1), (0xa8e, 0xa8e, 1), (0xa92, 0xa92, 1), (0xaa9, 0xaa9, 1),
  (0xab1, 0xab1, 1), (0xab4, 0xab4, 1), (0xaba, 0xabb, 1), (0xac6, 0xac6, 1), (0xaca, 0xaca, 1),
  (0xace, 0xacf, 1), (0xad1, 0xadf, 1), (0xae4, 0xae5, 1), (0xaf2, 0xaf8, 1), (0xb00, 0xb00, 1),
  (0xb04, 0xb04, 1), (0xb0d, 0xb0e, 1), (0xb11, 0xb12, 1), (0xb29, 0xb29, 1), (0xb31, 0xb31, 1),
  (0xb34, 0xb34, 1), (0xb3a, 0xb3b, 1), (0xb45, 0xb46, 1), (0xb49, 0xb4a, 1), (0xb4e, 0xb54, 1),
  (0xb58, 0xb5b, 1), (0xb5e, 0xb5e, 1), (0xb64, 0xb65, 1), (0xb78, 0xb81, 1), (0xb84, 0xb84, 1),
  (0xb8b, 0xb8d, 1), (0xb91, 0xb91, 1), (0xb96, 0xb98, 1), (0xb9b, 0xb9d, 2), (0xba0, 0xba2, 1),
  (0xba5, 0xba7, 1), (0xbab, 0xbad, 1), (0xbba, 0xbbd, 1), (0xbc3, 0xbc5, 1), (0xbc9, 0xbc9, 1),
  (0xbce, 0xbcf, 1), (0xbd1, 0xbd6, 1), (0xbd8, 0xbe5, 1), (0xbfb, 0xbff, 1), (0xc0d, 0xc0d, 1),
  (0xc11, 0xc11, 1), (0xc29, 0xc29, 1), (0xc3a, 0xc3b, 1), (0xc45, 0xc45, 1), (0xc49, 0xc49, 1),
  (0xc4e, 0xc54, 1), (0xc57, 0xc57, 1), (0xc5b, 0xc5c, 1), (0xc5e, 0xc5f, 1), (0xc64, 0xc65, 1),
  (0xc70, 0xc76, 1), (0xc8d, 0xc8d, 1), (0xc91, 0xc91, 1), (0xca9, 0xca9, 1), (0xcb4, 0xcb4, 1),
  (0xcba, 0xcbb, 1), (0xcc5, 0xcc5, 1), (0xcc9, 0xcc9, 1), (0xcce, 0xcd4, 1), (0xcd7, 0xcdc, 1),
  (0xcdf, 0xcdf, 1), (0xce4, 0xce5, 1), (0xcf0, 0xcf0, 1), (0xcf4, 0xcff, 1), (0xd0d, 0xd0d, 1),
  (0xd11, 0xd11, 1), (0xd45, 0xd45, 1), (0xd49, 0xd49, 1), (0xd50, 0xd53, 1), (0xd64, 0xd65, 1),
  (0xd80, 0xd80, 1), (0xd84, 0xd84, 1), (0xd97, 0xd99, 1), (0xdb2, 0xdb2, 1), (0xdbc, 0xdbe, 2),
  (0xdbf, 0xdbf, 1), (0xdc7, 0xdc9, 1), (0xdcb, 0xdce, 1), (0xdd5, 0xdd7, 2), (0xde0, 0xde5, 1),
  (0xdf0, 0xdf1, 1), (0xdf5, 0xe00, 1), (0xe3b, 0xe3e, 1), (0xe5c, 0xe80, 1), (0xe83, 0xe85, 2),
  (0xe8b, 0xe8b, 1), (0xea4, 0xea6, 2), (0xebe, 0xebf, 1), (0xec5, 0xec7, 2), (0xecf, 0xecf, 1),
  (0xeda, 0xedb, 1), (0xee0, 0xeff, 1), (0xf48, 0xf48, 1), (0xf6d, 0xf70, 1), (0xf98, 0xf98, 1),
  (0xfbd, 0xfbd, 1), (0xfcd, 0xfcd, 1), (0xfdb, 0xfff, 1), (0x10c6, 0x10c8, 2), (0x10c9, 0x10cc,
  1), (0x10ce, 0x10cf, 1), (0x1249, 0x1249, 1), (0x124e, 0x124f, 1), (0x1257, 0x1259, 2),
  (0x125e, 0x125f, 1), (0x1289, 0x1289, 1), (0x128e, 0x128f, 1), (0x12b1, 0x12b1, 1), (0x12b6,
  0x12b7, 1), (0x12bf, 0x12c1, 2), (0x12c6, 0x12c7, 1), (0x12d7, 0x12d7, 1), (0x1311, 0x1311,
  1), (0x1316, 0x1317, 1), (0x135b, 0x135c, 1), (0x137d, 0x137f, 1), (0x139a, 0x139f, 1),
  (0x13f6, 0x13f7, 1), (0x13fe, 0x13ff, 1), (0x1680, 0x1680, 1), (0x169d, 0x169f, 1), (0x16f9,
  0x16ff, 1), (0x1716, 0x171e, 1), (0x1737, 0x173f, 1), (0x1754, 0x175f, 1), (0x176d, 0x176d,
  1), (0x1771, 0x1771, 1), (0x1774, 0x177f, 1), (0x17de, 0x17df, 1), (0x17ea, 0x17ef, 1),
  (0x17fa, 0x17ff, 1), (0x180e, 0x180e, 1), (0x181a, 0x181f, 1), (0x1879, 0x187f, 1), (0x18ab,
  0x18af, 1), (0x18f6, 0x18ff, 1), (0x191f, 0x191f, 1), (0x192c, 0x192f, 1), (0x193c, 0x193f,
  1), (0x1941, 0x1943, 1), (0x196e, 0x196f, 1), (0x1975, 0x197f, 1), (0x19ac, 0x19af, 1),
  (0x19ca, 0x19cf, 1), (0x19db, 0x19dd, 1), (0x1a1c, 0x1a1d, 1), (0x1a5f, 0x1a5f, 1), (0x1a7d,
  0x1a7e, 1), (0x1a8a, 0x1a8f, 1), (0x1a9a, 0x1a9f, 1), (0x1aae, 0x1aaf, 1), (0x1acf, 0x1aff,
  1), (0x1b4d, 0x1b4f, 1), (0x1b7f, 0x1b7f, 1), (0x1bf4, 0x1bfb, 1), (0x1c38, 0x1c3a, 1),
  (0x1c4a, 0x1c4c, 1), (0x1c89, 0x1c8f, 1), (0x1cbb, 0x1cbc, 1), (0x1cc8, 0x1ccf, 1), (0x1cfb,
  0x1cff, 1), (0x1f16, 0x1f17, 1), (0x1f1e, 0x1f1f, 1), (0x1f46, 0x1f47, 1), (0x1f4e, 0x1f4f,
  1), (0x1f58, 0x1f5e, 2), (0x1f7e, 0x1f7f, 1), (0x1fb5, 0x1fb5, 1), (0x1fc5, 0x1fc5, 1),
  (0x1fd4, 0x1fd5, 1), (0x1fdc, 0x1fdc, 1), (0x1ff0, 0x1ff1, 1), (0x1ff5, 0x1ff5, 1), (0x1fff,
  0x200f, 1), (0x2028, 0x202f, 1), (0x205f, 0x206f, 1), (0x2072, 0x2073, 1), (0x208f, 0x208f,
  1), (0x209d, 0x209f, 1), (0x20c1, 0x20cf, 1), (0x20f1, 0x20ff, 1), (0x218c, 0x218f, 1),
  (0x2427, 0x243f, 1), (0x244b, 0x245f, 1), (0x2b74, 0x2b75, 1), (0x2b96, 0x2b96, 1), (0x2cf4,
  0x2cf8, 1), (0x2d26, 0x2d28, 2), (0x2d29, 0x2d2c, 1), (0x2d2e, 0x2d2f, 1), (0x2d68, 0x2d6e,
  1), (0x2d71, 0x2d7e, 1), (0x2d97, 0x2d9f, 1), (0x2da7, 0x2da7, 1), (0x2daf, 0x2daf, 1),
  (0x2db7, 0x2db7, 1), (0x2dbf, 0x2dbf, 1), (0x2dc7, 0x2dc7, 1), (0x2dcf, 0x2dcf, 1), (0x2dd7,
  0x2dd7, 1), (0x2ddf, 0x2ddf, 1), (0x2e5e, 0x2e7f, 1), (0x2e9a, 0x2e9a, 1), (0x2ef4, 0x2eff,
  1), (0x2fd6, 0x2fef, 1), (0x2ffc, 0x3000, 1), (0x3040, 0x3040, 1), (0x3097, 0x3098, 1),
  (0x3100, 0x3104, 1), (0x3130, 0x3130, 1), (0x318f, 0x318f, 1), (0x31e4, 0x31ef, 1), (0x321f,
  0x321f, 1), (0xa48d, 0xa48f, 1), (0xa4c7, 0xa4cf, 1), (0xa62c, 0xa63f, 1), (0xa6f8, 0xa6ff,
  1), (0xa7cb, 0xa7cf, 1), (0xa7d2, 0xa7d4, 2), (0xa7da, 0xa7f1, 1), (0xa82d, 0xa82f, 1),
  (0xa83a, 0xa83f, 1), (0xa878, 0xa87f, 1), (0xa8c6, 0xa8cd, 1), (0xa8da, 0xa8df, 1), (0xa954,
  0xa95e, 1), (0xa97d, 0xa97f, 1), (0xa9ce, 0xa9ce, 1), (0xa9da, 0xa9dd, 1), (0xa9ff, 0xa9ff,
  1), (0xaa37, 0xaa3f, 1), (0xaa4e, 0xaa4f, 1), (0xaa5a, 0xaa5b, 1), (0xaac3, 0xaada, 1),
  (0xaaf7, 0xab00, 1), (0xab07, 0xab08, 1), (0xab0f, 0xab10, 1), (0xab17, 0xab1f, 1), (0xab27,
  0xab27, 1), (0xab2f, 0xab2f, 1), (0xab6c, 0xab6f, 1), (0xabee, 0xabef, 1), (0xabfa, 0xabff,
  1), (0xd7a4, 0xd7af, 1), (0xd7c7, 0xd7ca, 1), (0xd7fc, 0xd7ff, 1), (0xe000, 0xf8ff, 1),
  (0xfa6e, 0xfa6f, 1), (0xfada, 0xfaff, 1), (0xfb07, 0xfb12, 1), (0xfb18, 0xfb1c, 1), (0xfb37,
  0xfb37, 1), (0xfb3d, 0xfb3f, 2), (0xfb42, 0xfb42, 1), (0xfb45, 0xfb45, 1), (0xfbc3, 0xfbd2,
  1), (0xfd90, 0xfd91, 1), (0xfdc8, 0xfdce, 1), (0xfdd0, 0xfdef, 1), (0xfe1a, 0xfe1f, 1),
  (0xfe53, 0xfe53, 1), (0xfe67, 0xfe67, 1), (0xfe6c, 0xfe6f, 1), (0xfe75, 0xfe75, 1), (0xfefd,
  0xff00, 1), (0xffbf, 0xffc1, 1), (0xffc8, 0xffc9, 1), (0xffd0, 0xffd1, 1), (0xffd8, 0xffd9,
  1), (0xffdd, 0xffdf, 1), (0xffe7, 0xffe7, 1), (0xffef, 0xfffb, 1), (0xfffe, 0xffff, 1),
  (0x1000c, 0x1000c, 1), (0x10027, 0x10027, 1), (0x1003b, 0x1003b, 1), (0x1003e, 0x1003e, 1),
  (0x1004e, 0x1004f, 1), (0x1005e, 0x1007f, 1), (0x100fb, 0x100ff, 1), (0x10103, 0x10106, 1),
  (0x10134, 0x10136, 1), (0x1018f, 0x1018f, 1), (0x1019d, 0x1019f, 1), (0x101a1, 0x101cf, 1),
  (0x101fe, 0x1027f, 1), (0x1029d, 0x1029f, 1), (0x102d1, 0x102df, 1), (0x102fc, 0x102ff, 1),
  (0x10324, 0x1032c, 1), (0x1034b, 0x1034f, 1), (0x1037b, 0x1037f, 1), (0x1039e, 0x1039e, 1),
  (0x103c4, 0x103c7, 1), (0x103d6, 0x103ff, 1), (0x1049e, 0x1049f, 1), (0x104aa, 0x104af, 1),
  (0x104d4, 0x104d7, 1), (0x104fc, 0x104ff, 1), (0x10528, 0x1052f, 1), (0x10564, 0x1056e, 1),
  (0x1057b, 0x1057b, 1), (0x1058b, 0x1058b, 1), (0x10593, 0x10593, 1), (0x10596, 0x10596, 1),
  (0x105a2, 0x105a2, 1), (0x105b2, 0x105b2, 1), (0x105ba, 0x105ba, 1), (0x105bd, 0x105ff, 1),
  (0x10737, 0x1073f, 1), (0x10756, 0x1075f, 1), (0x10768, 0x1077f, 1), (0x10786, 0x10786, 1),
  (0x107b1, 0x107b1, 1), (0x107bb, 0x107ff, 1), (0x10806, 0x10807, 1), (0x10809, 0x10809, 1),
  (0x10836, 0x10836, 1), (0x10839, 0x1083b, 1), (0x1083d, 0x1083e, 1), (0x10856, 0x10856, 1),
  (0x1089f, 0x108a6, 1), (0x108b0, 0x108df, 1), (0x108f3, 0x108f3, 1), (0x108f6, 0x108fa, 1),
  (0x1091c, 0x1091e, 1), (0x1093a, 0x1093e, 1), (0x10940, 0x1097f, 1), (0x109b8, 0x109bb, 1),
  (0x109d0, 0x109d1, 1), (0x10a04, 0x10a04, 1), (0x10a07, 0x10a0b, 1), (0x10a14, 0x10a14, 1),
  (0x10a18, 0x10a18, 1), (0x10a36, 0x10a37, 1), (0x10a3b, 0x10a3e, 1), (0x10a49, 0x10a4f, 1),
  (0x10a59, 0x10a5f, 1), (0x10aa0, 0x10abf, 1), (0x10ae7, 0x10aea, 1), (0x10af7, 0x10aff, 1),
  (0x10b36, 0x10b38, 1), (0x10b56, 0x10b57, 1), (0x10b73, 0x10b77, 1), (0x10b92, 0x10b98, 1),
  (0x10b9d, 0x10ba8, 1), (0x10bb0, 0x10bff, 1), (0x10c49, 0x10c7f, 1), (0x10cb3, 0x10cbf, 1),
  (0x10cf3, 0x10cf9, 1), (0x10d28, 0x10d2f, 1), (0x10d3a, 0x10e5f, 1), (0x10e7f, 0x10e7f, 1),
  (0x10eaa, 0x10eaa, 1), (0x10eae, 0x10eaf, 1), (0x10eb2, 0x10efc, 1), (0x10f28, 0x10f2f, 1),
  (0x10f5a, 0x10f6f, 1), (0x10f8a, 0x10faf, 1), (0x10fcc, 0x10fdf, 1), (0x10ff7, 0x10fff, 1),
  (0x1104e, 0x11051, 1), (0x11076, 0x1107e, 1), (0x110bd, 0x110bd, 1), (0x110c3, 0x110cf, 1),
  (0x110e9, 0x110ef, 1), (0x110fa, 0x110ff, 1), (0x11135, 0x11135, 1), (0x11148, 0x1114f, 1),
  (0x11177, 0x1117f, 1), (0x111e0, 0x111e0, 1), (0x111f5, 0x111ff, 1), (0x11212, 0x11212, 1),
  (0x11242, 0x1127f, 1), (0x11287, 0x11289, 2), (0x1128e, 0x1128e, 1), (0x1129e, 0x1129e, 1),
  (0x112aa, 0x112af, 1), (0x112eb, 0x112ef, 1), (0x112fa, 0x112ff, 1), (0x11304, 0x11304, 1),
  (0x1130d, 0x1130e, 1), (0x11311, 0x11312, 1), (0x11329, 0x11329, 1), (0x11331, 0x11331, 1),
  (0x11334, 0x11334, 1), (0x1133a, 0x1133a, 1), (0x11345, 0x11346, 1), (0x11349, 0x1134a, 1),
  (0x1134e, 0x1134f, 1), (0x11351, 0x11356, 1), (0x11358, 0x1135c, 1), (0x11364, 0x11365, 1),
  (0x1136d, 0x1136f, 1), (0x11375, 0x113ff, 1), (0x1145c, 0x1145c, 1), (0x11462, 0x1147f, 1),
  (0x114c8, 0x114cf, 1), (0x114da, 0x1157f, 1), (0x115b6, 0x115b7, 1), (0x115de, 0x115ff, 1),
  (0x11645, 0x1164f, 1), (0x1165a, 0x1165f, 1), (0x1166d, 0x1167f, 1), (0x116ba, 0x116bf, 1),
  (0x116ca, 0x116ff, 1), (0x1171b, 0x1171c, 1), (0x1172c, 0x1172f, 1), (0x11747, 0x117ff, 1),
  (0x1183c, 0x1189f, 1), (0x118f3, 0x118fe, 1), (0x11907, 0x11908, 1), (0x1190a, 0x1190b, 1),
  (0x11914, 0x11914, 1), (0x11917, 0x11917, 1), (0x11936, 0x11936, 1), (0x11939, 0x1193a, 1),
  (0x11947, 0x1194f, 1), (0x1195a, 0x1199f, 1), (0x119a8, 0x119a9, 1), (0x119d8, 0x119d9, 1),
  (0x119e5, 0x119ff, 1), (0x11a48, 0x11a4f, 1), (0x11aa3, 0x11aaf, 1), (0x11af9, 0x11aff, 1),
  (0x11b0a, 0x11bff, 1), (0x11c09, 0x11c09, 1), (0x11c37, 0x11c37, 1), (0x11c46, 0x11c4f, 1),
  (0x11c6d, 0x11c6f, 1), (0x11c90, 0x11c91, 1), (0x11ca8, 0x11ca8, 1), (0x11cb7, 0x11cff, 1),
  (0x11d07, 0x11d07, 1), (0x11d0a, 0x11d0a, 1), (0x11d37, 0x11d39, 1), (0x11d3b, 0x11d3b, 1),
  (0x11d3e, 0x11d3e, 1), (0x11d48, 0x11d4f, 1), (0x11d5a, 0x11d5f, 1), (0x11d66, 0x11d66, 1),
  (0x11d69, 0x11d69, 1), (0x11d8f, 0x11d8f, 1), (0x11d92, 0x11d92, 1), (0x11d99, 0x11d9f, 1),
  (0x11daa, 0x11edf, 1), (0x11ef9, 0x11eff, 1), (0x11f11, 0x11f11, 1), (0x11f3b, 0x11f3d, 1),
  (0x11f5a, 0x11faf, 1), (0x11fb1, 0x11fbf, 1), (0x11ff2, 0x11ffe, 1), (0x1239a, 0x123ff, 1),
  (0x1246f, 0x1246f, 1), (0x12475, 0x1247f, 1), (0x12544, 0x12f8f, 1), (0x12ff3, 0x12fff, 1),
  (0x13430, 0x1343f, 1), (0x13456, 0x143ff, 1), (0x14647, 0x167ff, 1), (0x16a39, 0x16a3f, 1),
  (0x16a5f, 0x16a5f, 1), (0x16a6a, 0x16a6d, 1), (0x16abf, 0x16abf, 1), (0x16aca, 0x16acf, 1),
  (0x16aee, 0x16aef, 1), (0x16af6, 0x16aff, 1), (0x16b46, 0x16b4f, 1), (0x16b5a, 0x16b5a, 1),
  (0x16b62, 0x16b62, 1), (0x16b78, 0x16b7c, 1), (0x16b90, 0x16e3f, 1), (0x16e9b, 0x16eff, 1),
  (0x16f4b, 0x16f4e, 1), (0x16f88, 0x16f8e, 1), (0x16fa0, 0x16fdf, 1), (0x16fe5, 0x16fef, 1),
  (0x16ff2, 0x16fff, 1), (0x187f8, 0x187ff, 1), (0x18cd6, 0x18cff, 1), (0x18d09, 0x1afef, 1),
  (0x1aff4, 0x1aff4, 1), (0x1affc, 0x1affc, 1), (0x1afff, 0x1afff, 1), (0x1b123, 0x1b131, 1),
  (0x1b133, 0x1b14f, 1), (0x1b153, 0x1b154, 1), (0x1b156, 0x1b163, 1), (0x1b168, 0x1b16f, 1),
  (0x1b2fc, 0x1bbff, 1), (0x1bc6b, 0x1bc6f, 1), (0x1bc7d, 0x1bc7f, 1), (0x1bc89, 0x1bc8f, 1),
  (0x1bc9a, 0x1bc9b, 1), (0x1bca0, 0x1ceff, 1), (0x1cf2e, 0x1cf2f, 1), (0x1cf47, 0x1cf4f, 1),
  (0x1cfc4, 0x1cfff, 1), (0x1d0f6, 0x1d0ff, 1), (0x1d127, 0x1d128, 1), (0x1d173, 0x1d17a, 1),
  (0x1d1eb, 0x1d1ff, 1), (0x1d246, 0x1d2bf, 1), (0x1d2d4, 0x1d2df, 1), (0x1d2f4, 0x1d2ff, 1),
  (0x1d357, 0x1d35f, 1), (0x1d379, 0x1d3ff, 1), (0x1d455, 0x1d455, 1), (0x1d49d, 0x1d49d, 1),
  (0x1d4a0, 0x1d4a1, 1), (0x1d4a3, 0x1d4a4, 1), (0x1d4a7, 0x1d4a8, 1), (0x1d4ad, 0x1d4ad, 1),
  (0x1d4ba, 0x1d4bc, 2), (0x1d4c4, 0x1d4c4, 1), (0x1d506, 0x1d506, 1), (0x1d50b, 0x1d50c, 1),
  (0x1d515, 0x1d515, 1), (0x1d51d, 0x1d51d, 1), (0x1d53a, 0x1d53a, 1), (0x1d53f, 0x1d53f, 1),
  (0x1d545, 0x1d547, 2), (0x1d548, 0x1d549, 1), (0x1d551, 0x1d551, 1), (0x1d6a6, 0x1d6a7, 1),
  (0x1d7cc, 0x1d7cd, 1), (0x1da8c, 0x1da9a, 1), (0x1daa0, 0x1daa0, 1), (0x1dab0, 0x1deff, 1),
  (0x1df1f, 0x1df24, 1), (0x1df2b, 0x1dfff, 1), (0x1e007, 0x1e007, 1), (0x1e019, 0x1e01a, 1),
  (0x1e022, 0x1e022, 1), (0x1e025, 0x1e025, 1), (0x1e02b, 0x1e02f, 1), (0x1e06e, 0x1e08e, 1),
  (0x1e090, 0x1e0ff, 1), (0x1e12d, 0x1e12f, 1), (0x1e13e, 0x1e13f, 1), (0x1e14a, 0x1e14d, 1),
  (0x1e150, 0x1e28f, 1), (0x1e2af, 0x1e2bf, 1), (0x1e2fa, 0x1e2fe, 1), (0x1e300, 0x1e4cf, 1),
  (0x1e4fa, 0x1e7df, 1), (0x1e7e7, 0x1e7e7, 1), (0x1e7ec, 0x1e7ec, 1), (0x1e7ef, 0x1e7ef, 1),
  (0x1e7ff, 0x1e7ff, 1), (0x1e8c5, 0x1e8c6, 1), (0x1e8d7, 0x1e8ff, 1), (0x1e94c, 0x1e94f, 1),
  (0x1e95a, 0x1e95d, 1), (0x1e960, 0x1ec70, 1), (0x1ecb5, 0x1ed00, 1), (0x1ed3e, 0x1edff, 1),
  (0x1ee04, 0x1ee04, 1), (0x1ee20, 0x1ee20, 1), (0x1ee23, 0x1ee25, 2), (0x1ee26, 0x1ee28, 2),
  (0x1ee33, 0x1ee33, 1), (0x1ee38, 0x1ee3c, 2), (0x1ee3d, 0x1ee41, 1), (0x1ee43, 0x1ee46, 1),
  (0x1ee48, 0x1ee4c, 2), (0x1ee50, 0x1ee50, 1), (0x1ee53, 0x1ee55, 2), (0x1ee56, 0x1ee60, 2),
  (0x1ee63, 0x1ee65, 2), (0x1ee66, 0x1ee66, 1), (0x1ee6b, 0x1ee6b, 1), (0x1ee73, 0x1ee73, 1),
  (0x1ee78, 0x1ee78, 1), (0x1ee7d, 0x1ee7f, 2), (0x1ee8a, 0x1ee8a, 1), (0x1ee9c, 0x1eea0, 1),
  (0x1eea4, 0x1eea4, 1), (0x1eeaa, 0x1eeaa, 1), (0x1eebc, 0x1eeef, 1), (0x1eef2, 0x1efff, 1),
  (0x1f02c, 0x1f02f, 1), (0x1f094, 0x1f09f, 1), (0x1f0af, 0x1f0b0, 1), (0x1f0c0, 0x1f0c0, 1),
  (0x1f0d0, 0x1f0d0, 1), (0x1f0f6, 0x1f0ff, 1), (0x1f1ae, 0x1f1e5, 1), (0x1f203, 0x1f20f, 1),
  (0x1f23c, 0x1f23f, 1), (0x1f249, 0x1f24f, 1), (0x1f252, 0x1f25f, 1), (0x1f266, 0x1f2ff, 1),
  (0x1f6d8, 0x1f6db, 1), (0x1f6ed, 0x1f6ef, 1), (0x1f6fd, 0x1f6ff, 1), (0x1f777, 0x1f77a, 1),
  (0x1f7da, 0x1f7df, 1), (0x1f7ec, 0x1f7ef, 1), (0x1f7f1, 0x1f7ff, 1), (0x1f80c, 0x1f80f, 1),
  (0x1f848, 0x1f84f, 1), (0x1f85a, 0x1f85f, 1), (0x1f888, 0x1f88f, 1), (0x1f8ae, 0x1f8af, 1),
  (0x1f8b2, 0x1f8ff, 1), (0x1fa54, 0x1fa5f, 1), (0x1fa6e, 0x1fa6f, 1), (0x1fa7d, 0x1fa7f, 1),
  (0x1fa89, 0x1fa8f, 1), (0x1fabe, 0x1fabe, 1), (0x1fac6, 0x1facd, 1), (0x1fadc, 0x1fadf, 1),
  (0x1fae9, 0x1faef, 1), (0x1faf9, 0x1faff, 1), (0x1fb93, 0x1fb93, 1), (0x1fbcb, 0x1fbef, 1),
  (0x1fbfa, 0x1ffff, 1), (0x2a6e0, 0x2a6ff, 1), (0x2b73a, 0x2b73f, 1), (0x2b81e, 0x2b81f, 1),
  (0x2cea2, 0x2ceaf, 1), (0x2ebe1, 0x2f7ff, 1), (0x2fa1e, 0x2ffff, 1), (0x3134b, 0x3134f, 1),
  (0x323b0, 0xe00ff, 1), (0xe01f0, 0x10ffff, 1)]

end Tables

end EntityForge.Text
