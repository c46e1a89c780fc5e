import RecordQuery.Text.Casing
import RecordQuery.Text.Printable

/-!
# Characters of names

A name begins with a letter or an underscore and goes on with letters, digits and marks, by version
14 of the Unicode character database. Many letters are only other forms of a plain letter, such as
the wide and the raised ones, and a name is the same in all of them.

* `opensName` and `continuesName` are the characters of names;
* `plainName` is a name in plain letters, as far as they are ASCII.
-/

namespace RecordQuery.Text

/-- Intervals beyond ASCII whose printable characters are no parts of names. -/
def signRanges : List (Nat × Nat) :=
  [
   (0xA1, 0xA9), (0xAB, 0xB4), (0xB6, 0xB6), (0xB8, 0xB9), (0xBB, 0xBF), (0xD7, 0xD7),
   (0xF7, 0xF7), (0x2C2, 0x2C5), (0x2D2, 0x2DF), (0x2E5, 0x2EB), (0x2ED, 0x2ED), (0x2EF, 0x2FF),
   (0x375, 0x375), (0x37A, 0x37A), (0x37E, 0x37E), (0x384, 0x385), (0x3F6, 0x3F6), (0x482, 0x482),
   (0x488, 0x489), (0x55A, 0x55F), (0x589, 0x58F), (0x5BE, 0x5BE), (0x5C0, 0x5C0), (0x5C3, 0x5C3),
   (0x5C6, 0x5C6), (0x5F3, 0x60F), (0x61B, 0x61F), (0x66A, 0x66D), (0x6D4, 0x6D4), (0x6DE, 0x6DE),
   (0x6E9, 0x6E9), (0x6FD, 0x6FE), (0x700, 0x70D), (0x7F6, 0x7F9), (0x7FE, 0x7FF), (0x830, 0x83E),
   (0x85E, 0x85E), (0x888, 0x888), (0x964, 0x965), (0x970, 0x970), (0x9F2, 0x9FB), (0x9FD, 0x9FD),
   (0xA76, 0xA76), (0xAF0, 0xAF1), (0xB70, 0xB70), (0xB72, 0xB77), (0xBF0, 0xBFA), (0xC77, 0xC7F),
   (0xC84, 0xC84), (0xD4F, 0xD4F), (0xD58, 0xD5E), (0xD70, 0xD79), (0xDF4, 0xDF4), (0xE3F, 0xE3F),
   (0xE4F, 0xE4F), (0xE5A, 0xE5B), (0xF01, 0xF17), (0xF1A, 0xF1F), (0xF2A, 0xF34), (0xF36, 0xF36),
   (0xF38, 0xF38), (0xF3A, 0xF3D), (0xF85, 0xF85), (0xFBE, 0xFC5), (0xFC7, 0xFDA),
   (0x104A, 0x104F), (0x109E, 0x109F), (0x10FB, 0x10FB), (0x1360, 0x1368), (0x1372, 0x137C),
   (0x1390, 0x1399), (0x1400, 0x1400), (0x166D, 0x166E), (0x169B, 0x169C), (0x16EB, 0x16ED),
   (0x1735, 0x1736), (0x17D4, 0x17D6), (0x17D8, 0x17DB), (0x17F0, 0x180A), (0x1940, 0x1945),
   (0x19DE, 0x19FF), (0x1A1E, 0x1A1F), (0x1AA0, 0x1AA6), (0x1AA8, 0x1AAD), (0x1ABE, 0x1ABE),
   (0x1B5A, 0x1B6A), (0x1B74, 0x1B7E), (0x1BFC, 0x1BFF), (0x1C3B, 0x1C3F), (0x1C7E, 0x1C7F),
   (0x1CC0, 0x1CC7), (0x1CD3, 0x1CD3), (0x1FBD, 0x1FBD), (0x1FBF, 0x1FC1), (0x1FCD, 0x1FCF),
   (0x1FDD, 0x1FDF), (0x1FED, 0x1FEF), (0x1FFD, 0x203E), (0x2041, 0x2053), (0x2055, 0x2070),
   (0x2074, 0x207E), (0x2080, 0x208E), (0x20A0, 0x20C0), (0x20DD, 0x20E0), (0x20E2, 0x20E4),
   (0x2100, 0x2101), (0x2103, 0x2106), (0x2108, 0x2109), (0x2114, 0x2114), (0x2116, 0x2117),
   (0x211E, 0x2123), (0x2125, 0x2125), (0x2127, 0x2127), (0x2129, 0x2129), (0x213A, 0x213B),
   (0x2140, 0x2144), (0x214A, 0x214D), (0x214F, 0x215F), (0x2189, 0x2BFF), (0x2CE5, 0x2CEA),
   (0x2CF9, 0x2CFF), (0x2D70, 0x2D70), (0x2E00, 0x3004), (0x3008, 0x3020), (0x3030, 0x3030),
   (0x3036, 0x3037), (0x303D, 0x303F), (0x309B, 0x309C), (0x30A0, 0x30A0), (0x30FB, 0x30FB),
   (0x3190, 0x319F), (0x31C0, 0x31E3), (0x3200, 0x33FF), (0x4DC0, 0x4DFF), (0xA490, 0xA4C6),
   (0xA4FE, 0xA4FF), (0xA60D, 0xA60F), (0xA670, 0xA673), (0xA67E, 0xA67E), (0xA6F2, 0xA716),
   (0xA720, 0xA721), (0xA789, 0xA78A), (0xA828, 0xA82B), (0xA830, 0xA839), (0xA874, 0xA877),
   (0xA8CE, 0xA8CF), (0xA8F8, 0xA8FA), (0xA8FC, 0xA8FC), (0xA92E, 0xA92F), (0xA95F, 0xA95F),
   (0xA9C1, 0xA9CD), (0xA9DE, 0xA9DF), (0xAA5C, 0xAA5F), (0xAA77, 0xAA79), (0xAADE, 0xAADF),
   (0xAAF0, 0xAAF1), (0xAB5B, 0xAB5B), (0xAB6A, 0xAB6B), (0xABEB, 0xABEB), (0xFB29, 0xFB29),
   (0xFBB2, 0xFBC2), (0xFC5E, 0xFC63), (0xFD3E, 0xFD4F), (0xFDCF, 0xFDCF), (0xFDFA, 0xFDFF),
   (0xFE10, 0xFE19), (0xFE30, 0xFE32), (0xFE35, 0xFE4C), (0xFE50, 0xFE70), (0xFE72, 0xFE72),
   (0xFE74, 0xFE76), (0xFE78, 0xFE78), (0xFE7A, 0xFE7A), (0xFE7C, 0xFE7C), (0xFE7E, 0xFE7E),
   (0xFF01, 0xFF0F), (0xFF1A, 0xFF20), (0xFF3B, 0xFF3E), (0xFF40, 0xFF40), (0xFF5B, 0xFF65),
   (0xFFE0, 0xFFFD), (0x10100, 0x1013F), (0x10175, 0x101FC), (0x102E1, 0x102FB),
   (0x10320, 0x10323), (0x1039F, 0x1039F), (0x103D0, 0x103D0), (0x1056F, 0x1056F),
   (0x10857, 0x1085F), (0x10877, 0x1087F), (0x108A7, 0x108AF), (0x108FB, 0x108FF),
   (0x10916, 0x1091F), (0x1093F, 0x1093F), (0x109BC, 0x109BD), (0x109C0, 0x109FF),
   (0x10A40, 0x10A58), (0x10A7D, 0x10A7F), (0x10A9D, 0x10A9F), (0x10AC8, 0x10AC8),
   (0x10AEB, 0x10AF6), (0x10B39, 0x10B3F), (0x10B58, 0x10B5F), (0x10B78, 0x10B7F),
   (0x10B99, 0x10BAF), (0x10CFA, 0x10CFF), (0x10E60, 0x10E7E), (0x10EAD, 0x10EAD),
   (0x10F1D, 0x10F26), (0x10F51, 0x10F59), (0x10F86, 0x10F89), (0x10FC5, 0x10FCB),
   (0x11047, 0x11065), (0x110BB, 0x110C1), (0x11140, 0x11143), (0x11174, 0x11175),
   (0x111C5, 0x111C8), (0x111CD, 0x111CD), (0x111DB, 0x111DB), (0x111DD, 0x111F4),
   (0x11238, 0x1123D), (0x112A9, 0x112A9), (0x1144B, 0x1144F), (0x1145A, 0x1145D),
   (0x114C6, 0x114C6), (0x115C1, 0x115D7), (0x11641, 0x11643), (0x11660, 0x1166C),
   (0x116B9, 0x116B9), (0x1173A, 0x1173F), (0x1183B, 0x1183B), (0x118EA, 0x118F2),
   (0x11944, 0x11946), (0x119E2, 0x119E2), (0x11A3F, 0x11A46), (0x11A9A, 0x11A9C),
   (0x11A9E, 0x11AA2), (0x11C41, 0x11C45), (0x11C5A, 0x11C71), (0x11EF7, 0x11EF8),
   (0x11FC0, 0x11FFF), (0x12470, 0x12474), (0x12FF1, 0x12FF2), (0x16A6E, 0x16A6F),
   (0x16AF5, 0x16AF5), (0x16B37, 0x16B3F), (0x16B44, 0x16B45), (0x16B5B, 0x16B61),
   (0x16E80, 0x16E9A), (0x16FE2, 0x16FE2), (0x1BC9C, 0x1BC9C), (0x1BC9F, 0x1BC9F),
   (0x1CF50, 0x1D164), (0x1D16A, 0x1D16C), (0x1D183, 0x1D184), (0x1D18C, 0x1D1A9),
   (0x1D1AE, 0x1D241), (0x1D245, 0x1D378), (0x1D6C1, 0x1D6C1), (0x1D6DB, 0x1D6DB),
   (0x1D6FB, 0x1D6FB), (0x1D715, 0x1D715), (0x1D735, 0x1D735), (0x1D74F, 0x1D74F),
   (0x1D76F, 0x1D76F), (0x1D789, 0x1D789), (0x1D7A9, 0x1D7A9), (0x1D7C3, 0x1D7C3),
   (0x1D800, 0x1D9FF), (0x1DA37, 0x1DA3A), (0x1DA6D, 0x1DA74), (0x1DA76, 0x1DA83),
   (0x1DA85, 0x1DA8B), (0x1E14F, 0x1E14F), (0x1E2FF, 0x1E2FF), (0x1E8C7, 0x1E8CF),
   (0x1E95E, 0x1ED3D), (0x1EEF0, 0x1FBCA)
  ]

/-- Intervals beyond ASCII whose printable characters are parts of names that begin none. -/
def trailingRanges : List (Nat × Nat) :=
  [
   (0xB7, 0xB7), (0x300, 0x36F), (0x387, 0x387), (0x483, 0x487), (0x591, 0x5BD), (0x5BF, 0x5BF),
   (0x5C1, 0x5C2), (0x5C4, 0x5C5), (0x5C7, 0x5C7), (0x610, 0x61A), (0x64B, 0x669), (0x670, 0x670),
   (0x6D6, 0x6DC), (0x6DF, 0x6E4), (0x6E7, 0x6E8), (0x6EA, 0x6ED), (0x6F0, 0x6F9), (0x711, 0x711),
   (0x730, 0x74A), (0x7A6, 0x7B0), (0x7C0, 0x7C9), (0x7EB, 0x7F3), (0x7FD, 0x7FD), (0x816, 0x819),
   (0x81B, 0x823), (0x825, 0x827), (0x829, 0x82D), (0x859, 0x85B), (0x898, 0x89F), (0x8CA, 0x903),
   (0x93A, 0x93C), (0x93E, 0x94F), (0x951, 0x957), (0x962, 0x963), (0x966, 0x96F), (0x981, 0x983),
   (0x9BC, 0x9BC), (0x9BE, 0x9CD), (0x9D7, 0x9D7), (0x9E2, 0x9EF), (0x9FE, 0xA03), (0xA3C, 0xA51),
   (0xA66, 0xA71), (0xA75, 0xA75), (0xA81, 0xA83), (0xABC, 0xABC), (0xABE, 0xACD), (0xAE2, 0xAEF),
   (0xAFA, 0xB03), (0xB3C, 0xB3C), (0xB3E, 0xB57), (0xB62, 0xB6F), (0xB82, 0xB82), (0xBBE, 0xBCD),
   (0xBD7, 0xBEF), (0xC00, 0xC04), (0xC3C, 0xC3C), (0xC3E, 0xC56), (0xC62, 0xC6F), (0xC81, 0xC83),
   (0xCBC, 0xCBC), (0xCBE, 0xCD6), (0xCE2, 0xCEF), (0xD00, 0xD03), (0xD3B, 0xD3C), (0xD3E, 0xD4D),
   (0xD57, 0xD57), (0xD62, 0xD6F), (0xD81, 0xD83), (0xDCA, 0xDF3), (0xE31, 0xE31), (0xE33, 0xE3A),
   (0xE47, 0xE4E), (0xE50, 0xE59), (0xEB1, 0xEB1), (0xEB3, 0xEBC), (0xEC8, 0xED9), (0xF18, 0xF19),
   (0xF20, 0xF29), (0xF35, 0xF35), (0xF37, 0xF37), (0xF39, 0xF39), (0xF3E, 0xF3F), (0xF71, 0xF84),
   (0xF86, 0xF87), (0xF8D, 0xFBC), (0xFC6, 0xFC6), (0x102B, 0x103E), (0x1040, 0x1049),
   (0x1056, 0x1059), (0x105E, 0x1060), (0x1062, 0x1064), (0x1067, 0x106D), (0x1071, 0x1074),
   (0x1082, 0x108D), (0x108F, 0x109D), (0x135D, 0x135F), (0x1369, 0x1371), (0x1712, 0x1715),
   (0x1732, 0x1734), (0x1752, 0x1753), (0x1772, 0x1773), (0x17B4, 0x17D3), (0x17DD, 0x17E9),
   (0x180B, 0x1819), (0x18A9, 0x18A9), (0x1920, 0x193B), (0x1946, 0x194F), (0x19D0, 0x19DA),
   (0x1A17, 0x1A1B), (0x1A55, 0x1A99), (0x1AB0, 0x1ABD), (0x1ABF, 0x1B04), (0x1B34, 0x1B44),
   (0x1B50, 0x1B59), (0x1B6B, 0x1B73), (0x1B80, 0x1B82), (0x1BA1, 0x1BAD), (0x1BB0, 0x1BB9),
   (0x1BE6, 0x1BF3), (0x1C24, 0x1C37), (0x1C40, 0x1C49), (0x1C50, 0x1C59), (0x1CD0, 0x1CD2),
   (0x1CD4, 0x1CE8), (0x1CED, 0x1CED), (0x1CF4, 0x1CF4), (0x1CF7, 0x1CF9), (0x1DC0, 0x1DFF),
   (0x203F, 0x2040), (0x2054, 0x2054), (0x20D0, 0x20DC), (0x20E1, 0x20E1), (0x20E5, 0x20F0),
   (0x2CEF, 0x2CF1), (0x2D7F, 0x2D7F), (0x2DE0, 0x2DFF), (0x302A, 0x302F), (0x3099, 0x309A),
   (0xA620, 0xA629), (0xA66F, 0xA66F), (0xA674, 0xA67D), (0xA69E, 0xA69F), (0xA6F0, 0xA6F1),
   (0xA802, 0xA802), (0xA806, 0xA806), (0xA80B, 0xA80B), (0xA823, 0xA827), (0xA82C, 0xA82C),
   (0xA880, 0xA881), (0xA8B4, 0xA8C5), (0xA8D0, 0xA8F1), (0xA8FF, 0xA909), (0xA926, 0xA92D),
   (0xA947, 0xA953), (0xA980, 0xA983), (0xA9B3, 0xA9C0), (0xA9D0, 0xA9D9), (0xA9E5, 0xA9E5),
   (0xA9F0, 0xA9F9), (0xAA29, 0xAA36), (0xAA43, 0xAA43), (0xAA4C, 0xAA59), (0xAA7B, 0xAA7D),
   (0xAAB0, 0xAAB0), (0xAAB2, 0xAAB4), (0xAAB7, 0xAAB8), (0xAABE, 0xAABF), (0xAAC1, 0xAAC1),
   (0xAAEB, 0xAAEF), (0xAAF5, 0xAAF6), (0xABE3, 0xABEA), (0xABEC, 0xABF9), (0xFB1E, 0xFB1E),
   (0xFE00, 0xFE0F), (0xFE20, 0xFE2F), (0xFE33, 0xFE34), (0xFE4D, 0xFE4F), (0xFF10, 0xFF19),
   (0xFF3F, 0xFF3F), (0xFF9E, 0xFF9F), (0x101FD, 0x101FD), (0x102E0, 0x102E0), (0x10376, 0x1037A),
   (0x104A0, 0x104A9), (0x10A01, 0x10A0F), (0x10A38, 0x10A3F), (0x10AE5, 0x10AE6),
   (0x10D24, 0x10D39), (0x10EAB, 0x10EAC), (0x10F46, 0x10F50), (0x10F82, 0x10F85),
   (0x11000, 0x11002), (0x11038, 0x11046), (0x11066, 0x11070), (0x11073, 0x11074),
   (0x1107F, 0x11082), (0x110B0, 0x110BA), (0x110C2, 0x110C2), (0x110F0, 0x11102),
   (0x11127, 0x1113F), (0x11145, 0x11146), (0x11173, 0x11173), (0x11180, 0x11182),
   (0x111B3, 0x111C0), (0x111C9, 0x111CC), (0x111CE, 0x111D9), (0x1122C, 0x11237),
   (0x1123E, 0x1123E), (0x112DF, 0x11303), (0x1133B, 0x1133C), (0x1133E, 0x1134D),
   (0x11357, 0x11357), (0x11362, 0x11374), (0x11435, 0x11446), (0x11450, 0x11459),
   (0x1145E, 0x1145E), (0x114B0, 0x114C3), (0x114D0, 0x114D9), (0x115AF, 0x115C0),
   (0x115DC, 0x115DD), (0x11630, 0x11640), (0x11650, 0x11659), (0x116AB, 0x116B7),
   (0x116C0, 0x116C9), (0x1171D, 0x11739), (0x1182C, 0x1183A), (0x118E0, 0x118E9),
   (0x11930, 0x1193E), (0x11940, 0x11940), (0x11942, 0x11943), (0x11950, 0x11959),
   (0x119D1, 0x119E0), (0x119E4, 0x119E4), (0x11A01, 0x11A0A), (0x11A33, 0x11A39),
   (0x11A3B, 0x11A3E), (0x11A47, 0x11A47), (0x11A51, 0x11A5B), (0x11A8A, 0x11A99),
   (0x11C2F, 0x11C3F), (0x11C50, 0x11C59), (0x11C92, 0x11CB6), (0x11D31, 0x11D45),
   (0x11D47, 0x11D59), (0x11D8A, 0x11D97), (0x11DA0, 0x11DA9), (0x11EF3, 0x11EF6),
   (0x16A60, 0x16A69), (0x16AC0, 0x16AC9), (0x16AF0, 0x16AF4), (0x16B30, 0x16B36),
   (0x16B50, 0x16B59), (0x16F4F, 0x16F4F), (0x16F51, 0x16F92), (0x16FE4, 0x16FF1),
   (0x1BC9D, 0x1BC9E), (0x1CF00, 0x1CF46), (0x1D165, 0x1D169), (0x1D16D, 0x1D182),
   (0x1D185, 0x1D18B), (0x1D1AA, 0x1D1AD), (0x1D242, 0x1D244), (0x1D7CE, 0x1D7FF),
   (0x1DA00, 0x1DA36), (0x1DA3B, 0x1DA6C), (0x1DA75, 0x1DA75), (0x1DA84, 0x1DA84),
   (0x1DA9B, 0x1DAAF), (0x1E000, 0x1E02A), (0x1E130, 0x1E136), (0x1E140, 0x1E149),
   (0x1E2AE, 0x1E2AE), (0x1E2EC, 0x1E2F9), (0x1E8D0, 0x1E8D6), (0x1E944, 0x1E94A),
   (0x1E950, 0x1E959), (0x1FBF0, 0x1FBF9), (0xE0100, 0xE01EF)
  ]

/-- The letters and digits that are other forms of a single plain one. -/
def plainRuns : List CaseRun :=
  [
   ⟨0xAA, 0xAA, 1, -73⟩, ⟨0xBA, 0xBA, 1, -75⟩, ⟨0x17F, 0x17F, 1, -268⟩, ⟨0x2B0, 0x2B0, 1, -584⟩,
   ⟨0x2B2, 0x2B2, 1, -584⟩, ⟨0x2B3, 0x2B3, 1, -577⟩, ⟨0x2B7, 0x2B7, 1, -576⟩,
   ⟨0x2B8, 0x2B8, 1, -575⟩, ⟨0x2E1, 0x2E1, 1, -629⟩, ⟨0x2E2, 0x2E2, 1, -623⟩,
   ⟨0x2E3, 0x2E3, 1, -619⟩, ⟨0x1D2C, 0x1D2C, 1, -7403⟩, ⟨0x1D2E, 0x1D2E, 1, -7404⟩,
   ⟨0x1D30, 0x1D31, 1, -7404⟩, ⟨0x1D33, 0x1D3A, 1, -7404⟩, ⟨0x1D3C, 0x1D3C, 1, -7405⟩,
   ⟨0x1D3E, 0x1D3E, 1, -7406⟩, ⟨0x1D3F, 0x1D3F, 1, -7405⟩, ⟨0x1D40, 0x1D41, 1, -7404⟩,
   ⟨0x1D42, 0x1D42, 1, -7403⟩, ⟨0x1D43, 0x1D43, 1, -7394⟩, ⟨0x1D47, 0x1D47, 1, -7397⟩,
   ⟨0x1D48, 0x1D49, 1, -7396⟩, ⟨0x1D4D, 0x1D4D, 1, -7398⟩, ⟨0x1D4F, 0x1D4F, 1, -7396⟩,
   ⟨0x1D50, 0x1D50, 1, -7395⟩, ⟨0x1D52, 0x1D52, 1, -7395⟩, ⟨0x1D56, 0x1D56, 1, -7398⟩,
   ⟨0x1D57, 0x1D58, 1, -7395⟩, ⟨0x1D5B, 0x1D5B, 1, -7397⟩, ⟨0x1D62, 0x1D62, 1, -7417⟩,
   ⟨0x1D63, 0x1D63, 1, -7409⟩, ⟨0x1D64, 0x1D65, 1, -7407⟩, ⟨0x1D9C, 0x1D9C, 1, -7481⟩,
   ⟨0x1DA0, 0x1DA0, 1, -7482⟩, ⟨0x1DBB, 0x1DBB, 1, -7489⟩, ⟨0x2071, 0x2071, 1, -8200⟩,
   ⟨0x207F, 0x207F, 1, -8209⟩, ⟨0x2090, 0x2090, 1, -8239⟩, ⟨0x2091, 0x2091, 1, -8236⟩,
   ⟨0x2092, 0x2092, 1, -8227⟩, ⟨0x2093, 0x2093, 1, -8219⟩, ⟨0x2095, 0x2095, 1, -8237⟩,
   ⟨0x2096, 0x2099, 1, -8235⟩, ⟨0x209A, 0x209A, 1, -8234⟩, ⟨0x209B, 0x209C, 1, -8232⟩,
   ⟨0x2102, 0x2102, 1, -8383⟩, ⟨0x210A, 0x210A, 1, -8355⟩, ⟨0x210B, 0x210B, 1, -8387⟩,
   ⟨0x210C, 0x210C, 1, -8388⟩, ⟨0x210D, 0x210D, 1, -8389⟩, ⟨0x210E, 0x210E, 1, -8358⟩,
   ⟨0x2110, 0x2110, 1, -8391⟩, ⟨0x2111, 0x2111, 1, -8392⟩, ⟨0x2112, 0x2112, 1, -8390⟩,
   ⟨0x2113, 0x2113, 1, -8359⟩, ⟨0x2115, 0x2115, 1, -8391⟩, ⟨0x2119, 0x211B, 1, -8393⟩,
   ⟨0x211C, 0x211C, 1, -8394⟩, ⟨0x211D, 0x211D, 1, -8395⟩, ⟨0x2124, 0x2124, 1, -8394⟩,
   ⟨0x2128, 0x2128, 1, -8398⟩, ⟨0x212A, 0x212A, 1, -8415⟩, ⟨0x212C, 0x212D, 1, -8426⟩,
   ⟨0x212F, 0x212F, 1, -8394⟩, ⟨0x2130, 0x2131, 1, -8427⟩, ⟨0x2133, 0x2133, 1, -8422⟩,
   ⟨0x2134, 0x2134, 1, -8389⟩, ⟨0x2139, 0x2139, 1, -8400⟩, ⟨0x2145, 0x2145, 1, -8449⟩,
   ⟨0x2146, 0x2147, 1, -8418⟩, ⟨0x2148, 0x2149, 1, -8415⟩, ⟨0x2160, 0x2160, 1, -8471⟩,
   ⟨0x2164, 0x2164, 1, -8462⟩, ⟨0x2169, 0x2169, 1, -8465⟩, ⟨0x216C, 0x216C, 1, -8480⟩,
   ⟨0x216D, 0x216E, 1, -8490⟩, ⟨0x216F, 0x216F, 1, -8482⟩, ⟨0x2170, 0x2170, 1, -8455⟩,
   ⟨0x2174, 0x2174, 1, -8446⟩, ⟨0x2179, 0x2179, 1, -8449⟩, ⟨0x217C, 0x217C, 1, -8464⟩,
   ⟨0x217D, 0x217E, 1, -8474⟩, ⟨0x217F, 0x217F, 1, -8466⟩, ⟨0x2C7C, 0x2C7C, 1, -11282⟩,
   ⟨0x2C7D, 0x2C7D, 1, -11303⟩, ⟨0xA7F2, 0xA7F2, 1, -42927⟩, ⟨0xA7F3, 0xA7F3, 1, -42925⟩,
   ⟨0xA7F4, 0xA7F4, 1, -42915⟩, ⟨0xFE33, 0xFE33, 1, -64980⟩, ⟨0xFE34, 0xFE34, 1, -64981⟩,
   ⟨0xFE4D, 0xFE4D, 1, -65006⟩, ⟨0xFE4E, 0xFE4E, 1, -65007⟩, ⟨0xFE4F, 0xFE4F, 1, -65008⟩,
   ⟨0xFF10, 0xFF19, 1, -65248⟩, ⟨0xFF21, 0xFF3A, 1, -65248⟩, ⟨0xFF3F, 0xFF3F, 1, -65248⟩,
   ⟨0xFF41, 0xFF5A, 1, -65248⟩, ⟨0x107A5, 0x107A5, 1, -67380⟩, ⟨0x1D400, 0x1D419, 1, -119743⟩,
   ⟨0x1D41A, 0x1D433, 1, -119737⟩, ⟨0x1D434, 0x1D44D, 1, -119795⟩, ⟨0x1D44E, 0x1D454, 1, -119789⟩,
   ⟨0x1D456, 0x1D467, 1, -119789⟩, ⟨0x1D468, 0x1D481, 1, -119847⟩, ⟨0x1D482, 0x1D49B, 1, -119841⟩,
   ⟨0x1D49C, 0x1D49C, 1, -119899⟩, ⟨0x1D49E, 0x1D49F, 1, -119899⟩, ⟨0x1D4A2, 0x1D4A2, 1, -119899⟩,
   ⟨0x1D4A5, 0x1D4A6, 1, -119899⟩, ⟨0x1D4A9, 0x1D4AC, 1, -119899⟩, ⟨0x1D4AE, 0x1D4B5, 1, -119899⟩,
   ⟨0x1D4B6, 0x1D4B9, 1, -119893⟩, ⟨0x1D4BB, 0x1D4BB, 1, -119893⟩, ⟨0x1D4BD, 0x1D4C3, 1, -119893⟩,
   ⟨0x1D4C5, 0x1D4CF, 1, -119893⟩, ⟨0x1D4D0, 0x1D4E9, 1, -119951⟩, ⟨0x1D4EA, 0x1D503, 1, -119945⟩,
   ⟨0x1D504, 0x1D505, 1, -120003⟩, ⟨0x1D507, 0x1D50A, 1, -120003⟩, ⟨0x1D50D, 0x1D514, 1, -120003⟩,
   ⟨0x1D516, 0x1D51C, 1, -120003⟩, ⟨0x1D51E, 0x1D537, 1, -119997⟩, ⟨0x1D538, 0x1D539, 1, -120055⟩,
   ⟨0x1D53B, 0x1D53E, 1, -120055⟩, ⟨0x1D540, 0x1D544, 1, -120055⟩, ⟨0x1D546, 0x1D546, 1, -120055⟩,
   ⟨0x1D54A, 0x1D550, 1, -120055⟩, ⟨0x1D552, 0x1D56B, 1, -120049⟩, ⟨0x1D56C, 0x1D585, 1, -120107⟩,
   ⟨0x1D586, 0x1D59F, 1, -120101⟩, ⟨0x1D5A0, 0x1D5B9, 1, -120159⟩, ⟨0x1D5BA, 0x1D5D3, 1, -120153⟩,
   ⟨0x1D5D4, 0x1D5ED, 1, -120211⟩, ⟨0x1D5EE, 0x1D607, 1, -120205⟩, ⟨0x1D608, 0x1D621, 1, -120263⟩,
   ⟨0x1D622, 0x1D63B, 1, -120257⟩, ⟨0x1D63C, 0x1D655, 1, -120315⟩, ⟨0x1D656, 0x1D66F, 1, -120309⟩,
   ⟨0x1D670, 0x1D689, 1, -120367⟩, ⟨0x1D68A, 0x1D6A3, 1, -120361⟩, ⟨0x1D7CE, 0x1D7D7, 1, -120734⟩,
   ⟨0x1D7D8, 0x1D7E1, 1, -120744⟩, ⟨0x1D7E2, 0x1D7EB, 1, -120754⟩, ⟨0x1D7EC, 0x1D7F5, 1, -120764⟩,
   ⟨0x1D7F6, 0x1D7FF, 1, -120774⟩, ⟨0x1FBF0, 0x1FBF9, 1, -129984⟩
  ]

/-- The letters that stand for several plain ones. -/
def plainExpansions : List (Nat × String) :=
  [
   (0x132, "IJ"), (0x133, "ij"), (0x1C7, "LJ"), (0x1C8, "Lj"), (0x1C9, "lj"), (0x1CA, "NJ"),
   (0x1CB, "Nj"), (0x1CC, "nj"), (0x1F1, "DZ"), (0x1F2, "Dz"), (0x1F3, "dz"), (0x2161, "II"),
   (0x2162, "III"), (0x2163, "IV"), (0x2165, "VI"), (0x2166, "VII"), (0x2167, "VIII"),
   (0x2168, "IX"), (0x216A, "XI"), (0x216B, "XII"), (0x2171, "ii"), (0x2172, "iii"),
   (0x2173, "iv"), (0x2175, "vi"), (0x2176, "vii"), (0x2177, "viii"), (0x2178, "ix"),
   (0x217A, "xi"), (0x217B, "xii"), (0xFB00, "ff"), (0xFB01, "fi"), (0xFB02, "fl"),
   (0xFB03, "ffi"), (0xFB04, "ffl"), (0xFB05, "st"), (0xFB06, "st")
  ]

/-- Whether a character can go on with a name. -/
def continuesName (c : Char) : Bool :=
  if c.toNat < 0x80 then c.isAlphanum || c == '_' else isPrintable c && !inRanges signRanges c

/-- Whether a character can begin a name. -/
def opensName (c : Char) : Bool :=
  continuesName c && !c.isDigit && !inRanges trailingRanges c

/-- The plain letters that a character of a name stands for. -/
def plainLetters (c : Char) : List Char :=
  match plainExpansions.lookup c.toNat, plainRuns.findSome? fun r => r.image? c.toNat with
  | some s, _ => s.toList
  | none, some n => [Char.ofNat n]
  | none, none => [c]

/-- A name in plain letters. -/
def plainName (cs : List Char) : List Char := cs.flatMap plainLetters

end RecordQuery.Text
