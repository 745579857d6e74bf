import StepTrace.Text.Presentation

/-!
# Widths of texts on a grid

On a grid of cells a character takes one cell, two if it is wide, or none if it joins what
is beside it. Characters that are written as one take less room together than alone: a flag
made of two halves, pictures that are joined, letters that form a ligature. So a text is
measured from its end, and what a character adds hangs on what stands behind it. The tables
are those of Unicode, version 15.1; a control takes one cell.

* `measure`: what a character adds in front of a text.
* `textWidth_of_ascii`: a text of ASCII characters takes one cell for each.
-/

namespace StepTrace.Text

/-- The code points that take no cell. -/
def narrowestRanges : List (Nat × Nat) := [
  (0x00ad, 0x00ad), (0x0300, 0x036f), (0x0483, 0x0489), (0x0591, 0x05bd),
  (0x05bf, 0x05bf), (0x05c1, 0x05c2), (0x05c4, 0x05c5), (0x05c7, 0x05c7),
  (0x0605, 0x0605), (0x0610, 0x061a), (0x061c, 0x061c), (0x064b, 0x065f),
  (0x0670, 0x0670), (0x06d6, 0x06dc), (0x06df, 0x06e4), (0x06e7, 0x06e8),
  (0x06ea, 0x06ed), (0x070f, 0x070f), (0x0711, 0x0711), (0x0730, 0x074a),
  (0x07a6, 0x07b0), (0x07eb, 0x07f3), (0x07fd, 0x07fd), (0x0816, 0x0819),
  (0x081b, 0x0823), (0x0825, 0x0827), (0x0829, 0x082d), (0x0859, 0x085b),
  (0x0890, 0x0891), (0x0898, 0x089f), (0x08ca, 0x0902), (0x093a, 0x093a),
  (0x093c, 0x093c), (0x0941, 0x0948), (0x094d, 0x094d), (0x0951, 0x0957),
  (0x0962, 0x0963), (0x0981, 0x0981), (0x09bc, 0x09bc), (0x09be, 0x09be),
  (0x09c1, 0x09c4), (0x09cd, 0x09cd), (0x09d7, 0x09d7), (0x09e2, 0x09e3),
  (0x09fe, 0x09fe), (0x0a01, 0x0a02), (0x0a3c, 0x0a3c), (0x0a41, 0x0a42),
  (0x0a47, 0x0a48), (0x0a4b, 0x0a4d), (0x0a51, 0x0a51), (0x0a70, 0x0a71),
  (0x0a75, 0x0a75), (0x0a81, 0x0a82), (0x0abc, 0x0abc), (0x0ac1, 0x0ac5),
  (0x0ac7, 0x0ac8), (0x0acd, 0x0acd), (0x0ae2, 0x0ae3), (0x0afa, 0x0aff),
  (0x0b01, 0x0b01), (0x0b3c, 0x0b3c), (0x0b3e, 0x0b3f), (0x0b41, 0x0b44),
  (0x0b4d, 0x0b4d), (0x0b55, 0x0b57), (0x0b62, 0x0b63), (0x0b82, 0x0b82),
  (0x0bbe, 0x0bbe), (0x0bc0, 0x0bc0), (0x0bcd, 0x0bcd), (0x0bd7, 0x0bd7),
  (0x0c00, 0x0c00), (0x0c04, 0x0c04), (0x0c3c, 0x0c3c), (0x0c3e, 0x0c40),
  (0x0c46, 0x0c48), (0x0c4a, 0x0c4d), (0x0c55, 0x0c56), (0x0c62, 0x0c63),
  (0x0c81, 0x0c81), (0x0cbc, 0x0cbc), (0x0cbf, 0x0cc0), (0x0cc2, 0x0cc2),
  (0x0cc6, 0x0cc8), (0x0cca, 0x0ccd), (0x0cd5, 0x0cd6), (0x0ce2, 0x0ce3),
  (0x0d00, 0x0d01), (0x0d3b, 0x0d3c), (0x0d3e, 0x0d3e), (0x0d41, 0x0d44),
  (0x0d4d, 0x0d4e), (0x0d57, 0x0d57), (0x0d62, 0x0d63), (0x0d81, 0x0d81),
  (0x0dca, 0x0dca), (0x0dcf, 0x0dcf), (0x0dd2, 0x0dd4), (0x0dd6, 0x0dd6),
  (0x0ddf, 0x0ddf), (0x0e31, 0x0e31), (0x0e34, 0x0e3a), (0x0e47, 0x0e4e),
  (0x0eb1, 0x0eb1), (0x0eb4, 0x0ebc), (0x0ec8, 0x0ece), (0x0f18, 0x0f19),
  (0x0f35, 0x0f35), (0x0f37, 0x0f37), (0x0f39, 0x0f39), (0x0f71, 0x0f7e),
  (0x0f80, 0x0f84), (0x0f86, 0x0f87), (0x0f8d, 0x0f97), (0x0f99, 0x0fbc),
  (0x0fc6, 0x0fc6), (0x102d, 0x1030), (0x1032, 0x1037), (0x1039, 0x103a),
  (0x103d, 0x103e), (0x1058, 0x1059), (0x105e, 0x1060), (0x1071, 0x1074),
  (0x1082, 0x1082), (0x1085, 0x1086), (0x108d, 0x108d), (0x109d, 0x109d),
  (0x1160, 0x11ff), (0x135d, 0x135f), (0x1712, 0x1714), (0x1732, 0x1733),
  (0x1752, 0x1753), (0x1772, 0x1773), (0x17b4, 0x17b5), (0x17b7, 0x17bd),
  (0x17c6, 0x17c6), (0x17c9, 0x17d3), (0x17dd, 0x17dd), (0x180b, 0x180f),
  (0x1885, 0x1886), (0x18a9, 0x18a9), (0x1920, 0x1922), (0x1927, 0x1928),
  (0x1932, 0x1932), (0x1939, 0x193b), (0x1a17, 0x1a18), (0x1a1b, 0x1a1b),
  (0x1a56, 0x1a56), (0x1a58, 0x1a5e), (0x1a60, 0x1a60), (0x1a62, 0x1a62),
  (0x1a65, 0x1a6c), (0x1a73, 0x1a7c), (0x1a7f, 0x1a7f), (0x1ab0, 0x1ace),
  (0x1b00, 0x1b03), (0x1b34, 0x1b3d), (0x1b42, 0x1b43), (0x1b6b, 0x1b73),
  (0x1b80, 0x1b81), (0x1ba2, 0x1ba5), (0x1ba8, 0x1ba9), (0x1bab, 0x1bad),
  (0x1be6, 0x1be6), (0x1be8, 0x1be9), (0x1bed, 0x1bed), (0x1bef, 0x1bf1),
  (0x1c2c, 0x1c33), (0x1c36, 0x1c37), (0x1cd0, 0x1cd2), (0x1cd4, 0x1ce0),
  (0x1ce2, 0x1ce8), (0x1ced, 0x1ced), (0x1cf4, 0x1cf4), (0x1cf8, 0x1cf9),
  (0x1dc0, 0x1dff), (0x200b, 0x200f), (0x202a, 0x202e), (0x2060, 0x206f),
  (0x20d0, 0x20f0), (0x2cef, 0x2cf1), (0x2de0, 0x2dff), (0x302a, 0x302f),
  (0x3099, 0x309a), (0x3164, 0x3164), (0xa66f, 0xa672), (0xa674, 0xa67d),
  (0xa69e, 0xa69f), (0xa6f0, 0xa6f1), (0xa802, 0xa802), (0xa806, 0xa806),
  (0xa80b, 0xa80b), (0xa825, 0xa826), (0xa82c, 0xa82c), (0xa8c4, 0xa8c5),
  (0xa8e0, 0xa8f1), (0xa8fa, 0xa8fa), (0xa8ff, 0xa8ff), (0xa926, 0xa92d),
  (0xa947, 0xa951), (0xa980, 0xa982), (0xa9b3, 0xa9b3), (0xa9b6, 0xa9b9),
  (0xa9bc, 0xa9bd), (0xa9e5, 0xa9e5), (0xaa29, 0xaa2e), (0xaa31, 0xaa32),
  (0xaa35, 0xaa36), (0xaa43, 0xaa43), (0xaa4c, 0xaa4c), (0xaa7c, 0xaa7c),
  (0xaab0, 0xaab0), (0xaab2, 0xaab4), (0xaab7, 0xaab8), (0xaabe, 0xaabf),
  (0xaac1, 0xaac1), (0xaaec, 0xaaed), (0xaaf6, 0xaaf6), (0xabe5, 0xabe5),
  (0xabe8, 0xabe8), (0xabed, 0xabed), (0xd7b0, 0xd7c6), (0xd7cb, 0xd7fb),
  (0xfb1e, 0xfb1e), (0xfe00, 0xfe0f), (0xfe20, 0xfe2f), (0xfeff, 0xfeff),
  (0xff9e, 0xffa0), (0xfff0, 0xfff8), (0x101fd, 0x101fd), (0x102e0, 0x102e0),
  (0x10376, 0x1037a), (0x10a01, 0x10a03), (0x10a05, 0x10a06), (0x10a0c, 0x10a0f),
  (0x10a38, 0x10a3a), (0x10a3f, 0x10a3f), (0x10ae5, 0x10ae6), (0x10d24, 0x10d27),
  (0x10eab, 0x10eac), (0x10efd, 0x10eff), (0x10f46, 0x10f50), (0x10f82, 0x10f85),
  (0x11001, 0x11001), (0x11038, 0x11046), (0x11070, 0x11070), (0x11073, 0x11074),
  (0x1107f, 0x11081), (0x110b3, 0x110b6), (0x110b9, 0x110ba), (0x110c2, 0x110c2),
  (0x11100, 0x11102), (0x11127, 0x1112b), (0x1112d, 0x11134), (0x11173, 0x11173),
  (0x11180, 0x11181), (0x111b6, 0x111be), (0x111c2, 0x111c3), (0x111c9, 0x111cc),
  (0x111cf, 0x111cf), (0x1122f, 0x11231), (0x11234, 0x11234), (0x11236, 0x11237),
  (0x1123e, 0x1123e), (0x11241, 0x11241), (0x112df, 0x112df), (0x112e3, 0x112ea),
  (0x11300, 0x11301), (0x1133b, 0x1133c), (0x1133e, 0x1133e), (0x11340, 0x11340),
  (0x11357, 0x11357), (0x11366, 0x1136c), (0x11370, 0x11374), (0x11438, 0x1143f),
  (0x11442, 0x11444), (0x11446, 0x11446), (0x1145e, 0x1145e), (0x114b0, 0x114b0),
  (0x114b3, 0x114b8), (0x114ba, 0x114ba), (0x114bd, 0x114bd), (0x114bf, 0x114c0),
  (0x114c2, 0x114c3), (0x115af, 0x115af), (0x115b2, 0x115b5), (0x115bc, 0x115bd),
  (0x115bf, 0x115c0), (0x115dc, 0x115dd), (0x11633, 0x1163a), (0x1163d, 0x1163d),
  (0x1163f, 0x11640), (0x116ab, 0x116ab), (0x116ad, 0x116ad), (0x116b0, 0x116b5),
  (0x116b7, 0x116b7), (0x1171d, 0x1171f), (0x11722, 0x11725), (0x11727, 0x1172b),
  (0x1182f, 0x11837), (0x11839, 0x1183a), (0x11930, 0x11930), (0x1193b, 0x1193c),
  (0x1193e, 0x1193f), (0x11941, 0x11941), (0x11943, 0x11943), (0x119d4, 0x119d7),
  (0x119da, 0x119db), (0x119e0, 0x119e0), (0x11a01, 0x11a0a), (0x11a33, 0x11a38),
  (0x11a3a, 0x11a3e), (0x11a47, 0x11a47), (0x11a51, 0x11a56), (0x11a59, 0x11a5b),
  (0x11a84, 0x11a96), (0x11a98, 0x11a99), (0x11c30, 0x11c36), (0x11c38, 0x11c3d),
  (0x11c3f, 0x11c3f), (0x11c92, 0x11ca7), (0x11caa, 0x11cb0), (0x11cb2, 0x11cb3),
  (0x11cb5, 0x11cb6), (0x11d31, 0x11d36), (0x11d3a, 0x11d3a), (0x11d3c, 0x11d3d),
  (0x11d3f, 0x11d47), (0x11d90, 0x11d91), (0x11d95, 0x11d95), (0x11d97, 0x11d97),
  (0x11ef3, 0x11ef4), (0x11f00, 0x11f02), (0x11f36, 0x11f3a), (0x11f40, 0x11f40),
  (0x11f42, 0x11f42), (0x13440, 0x13440), (0x13447, 0x13455), (0x16af0, 0x16af4),
  (0x16b30, 0x16b36), (0x16f4f, 0x16f4f), (0x16f8f, 0x16f92), (0x16fe4, 0x16fe4),
  (0x1bc9d, 0x1bc9e), (0x1bca0, 0x1bca3), (0x1cf00, 0x1cf2d), (0x1cf30, 0x1cf46),
  (0x1d165, 0x1d165), (0x1d167, 0x1d169), (0x1d16e, 0x1d182), (0x1d185, 0x1d18b),
  (0x1d1aa, 0x1d1ad), (0x1d242, 0x1d244), (0x1da00, 0x1da36), (0x1da3b, 0x1da6c),
  (0x1da75, 0x1da75), (0x1da84, 0x1da84), (0x1da9b, 0x1da9f), (0x1daa1, 0x1daaf),
  (0x1e000, 0x1e006), (0x1e008, 0x1e018), (0x1e01b, 0x1e021), (0x1e023, 0x1e024),
  (0x1e026, 0x1e02a), (0x1e08f, 0x1e08f), (0x1e130, 0x1e136), (0x1e2ae, 0x1e2ae),
  (0x1e2ec, 0x1e2ef), (0x1e4ec, 0x1e4ef), (0x1e8d0, 0x1e8d6), (0x1e944, 0x1e94a),
  (0xe0000, 0xe0fff)]

/-- The code points that take two cells. -/
def wideRanges : List (Nat × Nat) := [
  (0x1100, 0x115f), (0x17a4, 0x17a4), (0x231a, 0x231b), (0x2329, 0x232a),
  (0x23e9, 0x23ec), (0x23f0, 0x23f0), (0x23f3, 0x23f3), (0x25fd, 0x25fe),
  (0x2614, 0x2615), (0x2648, 0x2653), (0x267f, 0x267f), (0x2693, 0x2693),
  (0x26a1, 0x26a1), (0x26aa, 0x26ab), (0x26bd, 0x26be), (0x26c4, 0x26c5),
  (0x26ce, 0x26ce), (0x26d4, 0x26d4), (0x26ea, 0x26ea), (0x26f2, 0x26f3),
  (0x26f5, 0x26f5), (0x26fa, 0x26fa), (0x26fd, 0x26fd), (0x2705, 0x2705),
  (0x270a, 0x270b), (0x2728, 0x2728), (0x274c, 0x274c), (0x274e, 0x274e),
  (0x2753, 0x2755), (0x2757, 0x2757), (0x2795, 0x2797), (0x27b0, 0x27b0),
  (0x27bf, 0x27bf), (0x2b1b, 0x2b1c), (0x2b50, 0x2b50), (0x2b55, 0x2b55),
  (0x2e80, 0x2e99), (0x2e9b, 0x2ef3), (0x2f00, 0x2fd5), (0x2ff0, 0x3029),
  (0x3030, 0x303e), (0x3041, 0x3096), (0x309b, 0x30ff), (0x3105, 0x312f),
  (0x3131, 0x3163), (0x3165, 0x318e), (0x3190, 0x31e3), (0x31ef, 0x321e),
  (0x3220, 0x3247), (0x3250, 0x4dbf), (0x4e00, 0xa48c), (0xa490, 0xa4c6),
  (0xa960, 0xa97c), (0xac00, 0xd7a3), (0xf900, 0xfaff), (0xfe10, 0xfe19),
  (0xfe30, 0xfe52), (0xfe54, 0xfe66), (0xfe68, 0xfe6b), (0xff01, 0xff60),
  (0xffe0, 0xffe6), (0x16fe0, 0x16fe3), (0x16ff0, 0x16ff1), (0x17000, 0x187f7),
  (0x18800, 0x18cd5), (0x18d00, 0x18d08), (0x1aff0, 0x1aff3), (0x1aff5, 0x1affb),
  (0x1affd, 0x1affe), (0x1b000, 0x1b122), (0x1b132, 0x1b132), (0x1b150, 0x1b152),
  (0x1b155, 0x1b155), (0x1b164, 0x1b167), (0x1b170, 0x1b2fb), (0x1f004, 0x1f004),
  (0x1f0cf, 0x1f0cf), (0x1f18e, 0x1f18e), (0x1f191, 0x1f19a), (0x1f200, 0x1f202),
  (0x1f210, 0x1f23b), (0x1f240, 0x1f248), (0x1f250, 0x1f251), (0x1f260, 0x1f265),
  (0x1f300, 0x1f320), (0x1f32d, 0x1f335), (0x1f337, 0x1f37c), (0x1f37e, 0x1f393),
  (0x1f3a0, 0x1f3ca), (0x1f3cf, 0x1f3d3), (0x1f3e0, 0x1f3f0), (0x1f3f4, 0x1f3f4),
  (0x1f3f8, 0x1f43e), (0x1f440, 0x1f440), (0x1f442, 0x1f4fc), (0x1f4ff, 0x1f53d),
  (0x1f54b, 0x1f54e), (0x1f550, 0x1f567), (0x1f57a, 0x1f57a), (0x1f595, 0x1f596),
  (0x1f5a4, 0x1f5a4), (0x1f5fb, 0x1f64f), (0x1f680, 0x1f6c5), (0x1f6cc, 0x1f6cc),
  (0x1f6d0, 0x1f6d2), (0x1f6d5, 0x1f6d7), (0x1f6dc, 0x1f6df), (0x1f6eb, 0x1f6ec),
  (0x1f6f4, 0x1f6fc), (0x1f7e0, 0x1f7eb), (0x1f7f0, 0x1f7f0), (0x1f90c, 0x1f93a),
  (0x1f93c, 0x1f945), (0x1f947, 0x1f9ff), (0x1fa70, 0x1fa7c), (0x1fa80, 0x1fa88),
  (0x1fa90, 0x1fabd), (0x1fabf, 0x1fac5), (0x1face, 0x1fadb), (0x1fae0, 0x1fae8),
  (0x1faf0, 0x1faf8), (0x20000, 0x2fffd), (0x30000, 0x3fffd)]

/-- Those of the points without a cell that letters do not join across. -/
def separatingRanges : List (Nat × Nat) := [
  (0x0605, 0x0605), (0x0890, 0x0891), (0x08e2, 0x08e2), (0x09be, 0x09be),
  (0x09d7, 0x09d7), (0x0b3e, 0x0b3e), (0x0b57, 0x0b57), (0x0bbe, 0x0bbe),
  (0x0bd7, 0x0bd7), (0x0cc0, 0x0cc0), (0x0cc2, 0x0cc2), (0x0cc7, 0x0cc8),
  (0x0cca, 0x0ccb), (0x0cd5, 0x0cd6), (0x0d3e, 0x0d3e), (0x0d4e, 0x0d4e),
  (0x0d57, 0x0d57), (0x0dcf, 0x0dcf), (0x0ddf, 0x0ddf), (0x1160, 0x11ff),
  (0x180e, 0x180e), (0x1b35, 0x1b35), (0x1b3b, 0x1b3b), (0x1b3d, 0x1b3d),
  (0x1b43, 0x1b43), (0x200c, 0x200d), (0x2065, 0x2069), (0x302e, 0x302f),
  (0x3164, 0x3164), (0xa8fa, 0xa8fa), (0xd7b0, 0xd7c6), (0xd7cb, 0xd7fb),
  (0xff9e, 0xffa0), (0xfff0, 0xfff8), (0x111c2, 0x111c3), (0x1133e, 0x1133e),
  (0x11357, 0x11357), (0x114b0, 0x114b0), (0x114bd, 0x114bd), (0x115af, 0x115af),
  (0x11930, 0x11930), (0x1193f, 0x1193f), (0x11941, 0x11941), (0x11a3a, 0x11a3a),
  (0x11a84, 0x11a89), (0x11d46, 0x11d46), (0x11f02, 0x11f02), (0x1d165, 0x1d165),
  (0x1d16e, 0x1d172), (0xe0000, 0xe0000), (0xe0002, 0xe001f), (0xe0080, 0xe00ff),
  (0xe01f0, 0xe0fff)]

/-- The letters that may stand below another one in one stack. -/
def stackableRanges : List (Nat × Nat) := [
  (0x1780, 0x1782), (0x1784, 0x1787), (0x1789, 0x178c), (0x178e, 0x1793),
  (0x1795, 0x1798), (0x179b, 0x179d), (0x17a0, 0x17a0), (0x17a2, 0x17a2),
  (0x17a7, 0x17a7), (0x17ab, 0x17ac), (0x17af, 0x17af)]

/-- The number of cells that a character takes by itself. -/
def charWidth (c : Char) : Nat :=
  if c.toNat ≤ 0xa0 then 1
  else if inRanges narrowestRanges c.toNat then 0
  else if c.toNat = 0x17d8 then 3
  else if inRanges wideRanges c.toNat then 2
  else 1

/-- The letters that are written as one with certain characters before them. -/
inductive Ligature where
  | alef
  | lamed
  | ya
  /-- A vowel sign and the joiner behind it, with the letter ya. -/
  | vowelAndYa
  | berber
  /-- The mark that joins two letters, with the second of them. -/
  | joinedBerber
  | lowTone
  | orkhonI
  | stackable
deriving DecidableEq, Repr

/-- What a text begins with, as far as it bears on the width of what stands before it. -/
inductive Beginning where
  | plain
  | lineFeed
  | skinTone
  | flagHalf
  /-- Two halves of flags or more. -/
  | flagHalves
  | picture
  /-- A joiner and a picture. -/
  | joinedPicture
  /-- The frame of a key, a joiner and a picture. -/
  | joinedKey
  /-- An odd or an even number of halves of flags, a joiner and a picture. -/
  | joinedFlags (isFirst isEven : Bool)
  /-- Tags, their end, a joiner and a picture: so many letters and so many digits. -/
  | joinedTags (letters digits : Nat)
  /-- A letter, and whether joiners stand before it. -/
  | letter (letter : Ligature) (isJoined : Bool)
deriving DecidableEq, Repr

/-- What a selector asks for. -/
inductive Selector where
  | none
  | text
  | picture
deriving DecidableEq, Repr

/-- What stands behind a character: a selector and the text behind that. -/
structure Sequel where
  selector : Selector
  beginning : Beginning
deriving DecidableEq, Repr

namespace Sequel

/-- Nothing that matters. -/
def plain : Sequel :=
  ⟨.none, .plain⟩

/-- A text without a selector before it. -/
def of (beginning : Beginning) : Sequel :=
  ⟨.none, beginning⟩

/-- Only letters are still seen through a selector. -/
def behindSelector : Beginning → Beginning
  | .letter l isJoined => .letter l isJoined
  | _ => .plain

/-- The sequel with a selector before it. A joiner in front of a picture is still seen through
a selector that asks for a picture. -/
def select (sequel : Sequel) (selector : Selector) : Sequel :=
  match selector, sequel.beginning with
  | .picture, .joinedPicture => ⟨.picture, .joinedPicture⟩
  | .picture, .joinedKey => ⟨.picture, .joinedKey⟩
  | _, beginning => ⟨selector, behindSelector beginning⟩

/-- The sequel without its selector. -/
def unselected (sequel : Sequel) : Sequel :=
  if sequel.selector = .none then sequel else of (behindSelector sequel.beginning)

end Sequel

/-- The beginning that a character by itself is, when it is above the controls. -/
def ownBeginning (c : Char) : Beginning :=
  let point := c.toNat
  if isFlagHalf c then .flagHalf
  else if isSkinTone c then .skinTone
  else if isPictured c then .picture
  else if inRanges [(0x0622, 0x0623), (0x0625, 0x0625), (0x0627, 0x0627), (0x0671, 0x0673),
      (0x0675, 0x0675), (0x0773, 0x0774), (0x0870, 0x0882)] point then .letter .alef false
  else if point = 0x05dc then .letter .lamed false
  else if point = 0x1a10 then .letter .ya false
  else if inRanges [(0x2d31, 0x2d65), (0x2d6f, 0x2d6f)] point then .letter .berber false
  else if inRanges [(0xa4fc, 0xa4fd)] point then .letter .lowTone false
  else if point = 0x10c03 then .letter .orkhonI false
  else if inRanges stackableRanges point then .letter .stackable false
  else .plain

/-- What stands behind the character before this one, if nothing else bears on it. -/
def ownSequel (c : Char) : Sequel :=
  if c = '\ufe0e' then ⟨.text, .plain⟩
  else if c = '\ufe0f' then ⟨.picture, .plain⟩
  else .of (ownBeginning c)

/-- A mark across which letters form ligatures. -/
def isSeenThrough (c : Char) : Bool :=
  inRanges [(0x034f, 0x034f), (0x17b4, 0x17b5), (0x180b, 0x180d), (0x180f, 0x180f),
    (0x200d, 0x200d), (0xfe00, 0xfe0f), (0xe0100, 0xe01ef)] c.toNat

/-- What a character adds before a letter with which it may form a ligature, and what stands
then behind the character before. -/
def beforeLetter? (c : Char) (letter : Ligature) (isJoined : Bool) : Option (Int × Sequel) :=
  let point := c.toNat
  if letter ≠ .alef ∧ point = 0x200d then some (0, .of (.letter letter true))
  else if letter ≠ .alef ∧ isSeenThrough c then some (0, .of (.letter letter isJoined))
  else
    let isBerber := inRanges [(0x2d31, 0x2d65), (0x2d6f, 0x2d6f)] point
    match letter, isJoined with
    | .alef, _ =>
      if inRanges [(0x0644, 0x0644), (0x06b5, 0x06b8), (0x076a, 0x076a), (0x08a6, 0x08a6),
          (0x08c7, 0x08c7)] point then some (0, .plain)
      else if charWidth c = 0 ∧ ! inRanges separatingRanges point then
        some (0, .of (.letter .alef false))
      else none
    | .lamed, true => if point = 0x05d0 then some (0, .plain) else none
    | .ya, true => if point = 0x1a17 then some (0, .of (.letter .vowelAndYa false)) else none
    | .vowelAndYa, false => if point = 0x1a15 then some (0, .plain) else none
    | .berber, isJoined =>
      if point = 0x2d7f then some (1, .of (.letter .joinedBerber false))
      else if isJoined && isBerber then some (0, .plain)
      else none
    | .joinedBerber, false => if isBerber then some (-1, .plain) else none
    | .lowTone, false => if inRanges [(0xa4f8, 0xa4fb)] point then some (0, .plain) else none
    | .orkhonI, true => if point = 0x10c32 then some (0, .plain) else none
    | .stackable, false => if point = 0x17d2 then some (-1, .plain) else none
    | _, _ => none

/-- What a character adds before a picture or a part of one to which it belongs, and what
stands then behind the character before. -/
def beforePicture? (c : Char) : Beginning → Option (Int × Sequel)
  | .skinTone =>
    if isModifiable c then some (0, .of .picture)
    else if c = '\u200d' then some (0, .of .joinedPicture)
    else none
  | .flagHalf => if isFlagHalf c then some (1, .of .flagHalves) else none
  | .flagHalves =>
    if isFlagHalf c then some (1, .of .flagHalves)
    else if c = '\u200d' then some (0, .of .joinedPicture)
    else none
  | .picture => if c = '\u200d' then some (0, .of .joinedPicture) else none
  | .joinedPicture =>
    if c = '\u20e3' then some (0, .of .joinedKey)
    else if isFlagHalf c then some (1, .of (.joinedFlags true false))
    else if isSkinTone c then some (0, .of .skinTone)
    else if c.toNat = 0xe007f then some (0, .of (.joinedTags 0 0))
    else if isPictured c then some (0, .of .picture)
    else none
  | .joinedFlags isFirst isEven =>
    if isFlagHalf c then
      some (if isEven then (3, .of (.joinedFlags false false))
        else (-1, .of (.joinedFlags false true)))
    else if c = '\u200d' ∧ ! isFirst then some (0, .of .joinedPicture)
    else none
  | .joinedTags letters digits =>
    if inRanges [(0xe0061, 0xe007a)] c.toNat ∧ digits = 0 ∧ letters < 6 then
      some (0, .of (.joinedTags (letters + 1) 0))
    else if inRanges [(0xe0030, 0xe0039)] c.toNat ∧ letters ≤ 4 ∧ digits < 3 then
      some (0, .of (.joinedTags letters (digits + 1)))
    else if c.toNat = 0x1f3f4 ∧ (digits = 0 ∧ 3 ≤ letters ∨ digits = 3) then
      some (0, .of .picture)
    else none
  | _ => none

/-- What a character adds before a sequel that asks for nothing. -/
def beforeBeginning? (c : Char) : Beginning → Option (Int × Sequel)
  | .letter letter isJoined => beforeLetter? c letter isJoined
  | beginning => beforePicture? c beginning

/-- What a character above the controls adds to the width of the text behind it, and what
stands then behind the character before. -/
def measureWide (c : Char) (sequel : Sequel) : Int × Sequel :=
  let alone : Int × Sequel := (charWidth c, ownSequel c)
  if sequel = .plain then alone
  else if c = '\ufe0f' then (0, sequel.select .picture)
  else if c = '\ufe0e' then (0, sequel.select .text)
  else if sequel.selector = .text ∧ isReducible c then (1, .plain)
  else (beforeBeginning? c sequel.unselected.beginning).getD alone

/-- What a character adds to the width of the text behind it, and what stands then behind
the character before. -/
def measure (c : Char) (sequel : Sequel) : Int × Sequel :=
  if sequel.selector = .picture ∧ isSelectable c then
    let isJoined := sequel.beginning = .joinedPicture ∨ sequel.beginning = .joinedKey
    (if isJoined then 0 else 2, .of .picture)
  else
    let sequel := if sequel.selector = .picture then sequel.unselected else sequel
    if c = '\n' then (1, .of .lineFeed)
    else if c = '\r' ∧ sequel = .of .lineFeed then (0, .plain)
    else if c.toNat ≤ 0xa0 then (1, .plain)
    else measureWide c sequel

/-- The width of a text and what it begins with. -/
def measureText (text : List Char) : Int × Sequel :=
  text.foldr (fun c (width, sequel) =>
    let (added, sequel) := measure c sequel
    (width + added, sequel)) (0, .plain)

/-- The number of cells that a text takes. -/
def textWidth (text : List Char) : Nat :=
  (measureText text).1.toNat

theorem measureText_cons (c : Char) (rest : List Char) :
    measureText (c :: rest) =
      ((measureText rest).1 + (measure c (measureText rest).2).1,
        (measure c (measureText rest).2).2) :=
  rfl

theorem measure_of_ascii {c : Char} {sequel : Sequel} (hc : c.toNat < 0x80) (hr : c ≠ '')
    (hs : sequel.selector = .none) :
    (measure c sequel).1 = 1 ∧ (measure c sequel).2.selector = .none := by
  have hle : c.toNat ≤ 0xa0 := by omega
  by_cases hn : c = '
' <;> simp [measure, hs, hn, hr, hle, Sequel.of, Sequel.plain]

theorem measureText_of_ascii {text : List Char} (h : ∀ c ∈ text, c.toNat < 0x80 ∧ c ≠ '') :
    (measureText text).1 = text.length ∧ (measureText text).2.selector = .none := by
  induction text with
  | nil => exact ⟨rfl, rfl⟩
  | cons c rest ih =>
    obtain ⟨hc, hr⟩ := h c (by simp)
    obtain ⟨hw, hs⟩ := ih fun d hd => h d (by simp [hd])
    obtain ⟨hone, hnone⟩ := measure_of_ascii hc hr hs
    simp [measureText_cons, hw, hone, hnone]

theorem textWidth_of_ascii {text : List Char} (h : ∀ c ∈ text, c.toNat < 0x80 ∧ c ≠ '\r') :
    textWidth text = text.length := by
  simp [textWidth, (measureText_of_ascii h).1]

end StepTrace.Text
