/-
  NoteAccess.Text.CharacterName

  Code points by name, in any case: the Latin and Greek letters, punctuation,
  signs, symbols and pictures in common use, the controls by their usual names,
  and the ideographs and Hangul syllables, whose names follow a rule.
-/

import NoteAccess.Text.Letters

namespace NoteAccess.CharacterName

/-- Names in common use. -/
def table : Array (CodePoint × String) := #[
  (32, "SPACE"), (33, "EXCLAMATION MARK"), (34, "QUOTATION MARK"), (35, "NUMBER SIGN"),
  (36, "DOLLAR SIGN"), (37, "PERCENT SIGN"), (38, "AMPERSAND"), (39, "APOSTROPHE"),
  (40, "LEFT PARENTHESIS"), (41, "RIGHT PARENTHESIS"), (42, "ASTERISK"), (43, "PLUS SIGN"),
  (44, "COMMA"), (45, "HYPHEN-MINUS"), (46, "FULL STOP"), (47, "SOLIDUS"), (48, "DIGIT ZERO"),
  (49, "DIGIT ONE"), (50, "DIGIT TWO"), (51, "DIGIT THREE"), (52, "DIGIT FOUR"),
  (53, "DIGIT FIVE"), (54, "DIGIT SIX"), (55, "DIGIT SEVEN"), (56, "DIGIT EIGHT"),
  (57, "DIGIT NINE"), (58, "COLON"), (59, "SEMICOLON"), (60, "LESS-THAN SIGN"),
  (61, "EQUALS SIGN"), (62, "GREATER-THAN SIGN"), (63, "QUESTION MARK"), (64, "COMMERCIAL AT"),
  (65, "LATIN CAPITAL LETTER A"), (66, "LATIN CAPITAL LETTER B"),
  (67, "LATIN CAPITAL LETTER C"), (68, "LATIN CAPITAL LETTER D"),
  (69, "LATIN CAPITAL LETTER E"), (70, "LATIN CAPITAL LETTER F"),
  (71, "LATIN CAPITAL LETTER G"), (72, "LATIN CAPITAL LETTER H"),
  (73, "LATIN CAPITAL LETTER I"), (74, "LATIN CAPITAL LETTER J"),
  (75, "LATIN CAPITAL LETTER K"), (76, "LATIN CAPITAL LETTER L"),
  (77, "LATIN CAPITAL LETTER M"), (78, "LATIN CAPITAL LETTER N"),
  (79, "LATIN CAPITAL LETTER O"), (80, "LATIN CAPITAL LETTER P"),
  (81, "LATIN CAPITAL LETTER Q"), (82, "LATIN CAPITAL LETTER R"),
  (83, "LATIN CAPITAL LETTER S"), (84, "LATIN CAPITAL LETTER T"),
  (85, "LATIN CAPITAL LETTER U"), (86, "LATIN CAPITAL LETTER V"),
  (87, "LATIN CAPITAL LETTER W"), (88, "LATIN CAPITAL LETTER X"),
  (89, "LATIN CAPITAL LETTER Y"), (90, "LATIN CAPITAL LETTER Z"), (91, "LEFT SQUARE BRACKET"),
  (92, "REVERSE SOLIDUS"), (93, "RIGHT SQUARE BRACKET"), (94, "CIRCUMFLEX ACCENT"),
  (95, "LOW LINE"), (96, "GRAVE ACCENT"), (97, "LATIN SMALL LETTER A"),
  (98, "LATIN SMALL LETTER B"), (99, "LATIN SMALL LETTER C"), (100, "LATIN SMALL LETTER D"),
  (101, "LATIN SMALL LETTER E"), (102, "LATIN SMALL LETTER F"), (103, "LATIN SMALL LETTER G"),
  (104, "LATIN SMALL LETTER H"), (105, "LATIN SMALL LETTER I"), (106, "LATIN SMALL LETTER J"),
  (107, "LATIN SMALL LETTER K"), (108, "LATIN SMALL LETTER L"), (109, "LATIN SMALL LETTER M"),
  (110, "LATIN SMALL LETTER N"), (111, "LATIN SMALL LETTER O"), (112, "LATIN SMALL LETTER P"),
  (113, "LATIN SMALL LETTER Q"), (114, "LATIN SMALL LETTER R"), (115, "LATIN SMALL LETTER S"),
  (116, "LATIN SMALL LETTER T"), (117, "LATIN SMALL LETTER U"), (118, "LATIN SMALL LETTER V"),
  (119, "LATIN SMALL LETTER W"), (120, "LATIN SMALL LETTER X"), (121, "LATIN SMALL LETTER Y"),
  (122, "LATIN SMALL LETTER Z"), (123, "LEFT CURLY BRACKET"), (124, "VERTICAL LINE"),
  (125, "RIGHT CURLY BRACKET"), (126, "TILDE"), (160, "NO-BREAK SPACE"),
  (161, "INVERTED EXCLAMATION MARK"), (162, "CENT SIGN"), (163, "POUND SIGN"),
  (164, "CURRENCY SIGN"), (165, "YEN SIGN"), (166, "BROKEN BAR"), (167, "SECTION SIGN"),
  (168, "DIAERESIS"), (169, "COPYRIGHT SIGN"), (170, "FEMININE ORDINAL INDICATOR"),
  (171, "LEFT-POINTING DOUBLE ANGLE QUOTATION MARK"), (172, "NOT SIGN"), (173, "SOFT HYPHEN"),
  (174, "REGISTERED SIGN"), (175, "MACRON"), (176, "DEGREE SIGN"), (177, "PLUS-MINUS SIGN"),
  (178, "SUPERSCRIPT TWO"), (179, "SUPERSCRIPT THREE"), (180, "ACUTE ACCENT"),
  (181, "MICRO SIGN"), (182, "PILCROW SIGN"), (183, "MIDDLE DOT"), (184, "CEDILLA"),
  (185, "SUPERSCRIPT ONE"), (186, "MASCULINE ORDINAL INDICATOR"),
  (187, "RIGHT-POINTING DOUBLE ANGLE QUOTATION MARK"), (188, "VULGAR FRACTION ONE QUARTER"),
  (189, "VULGAR FRACTION ONE HALF"), (190, "VULGAR FRACTION THREE QUARTERS"),
  (191, "INVERTED QUESTION MARK"), (192, "LATIN CAPITAL LETTER A WITH GRAVE"),
  (193, "LATIN CAPITAL LETTER A WITH ACUTE"), (194, "LATIN CAPITAL LETTER A WITH CIRCUMFLEX"),
  (195, "LATIN CAPITAL LETTER A WITH TILDE"), (196, "LATIN CAPITAL LETTER A WITH DIAERESIS"),
  (197, "LATIN CAPITAL LETTER A WITH RING ABOVE"), (198, "LATIN CAPITAL LETTER AE"),
  (199, "LATIN CAPITAL LETTER C WITH CEDILLA"), (200, "LATIN CAPITAL LETTER E WITH GRAVE"),
  (201, "LATIN CAPITAL LETTER E WITH ACUTE"), (202, "LATIN CAPITAL LETTER E WITH CIRCUMFLEX"),
  (203, "LATIN CAPITAL LETTER E WITH DIAERESIS"), (204, "LATIN CAPITAL LETTER I WITH GRAVE"),
  (205, "LATIN CAPITAL LETTER I WITH ACUTE"), (206, "LATIN CAPITAL LETTER I WITH CIRCUMFLEX"),
  (207, "LATIN CAPITAL LETTER I WITH DIAERESIS"), (208, "LATIN CAPITAL LETTER ETH"),
  (209, "LATIN CAPITAL LETTER N WITH TILDE"), (210, "LATIN CAPITAL LETTER O WITH GRAVE"),
  (211, "LATIN CAPITAL LETTER O WITH ACUTE"), (212, "LATIN CAPITAL LETTER O WITH CIRCUMFLEX"),
  (213, "LATIN CAPITAL LETTER O WITH TILDE"), (214, "LATIN CAPITAL LETTER O WITH DIAERESIS"),
  (215, "MULTIPLICATION SIGN"), (216, "LATIN CAPITAL LETTER O WITH STROKE"),
  (217, "LATIN CAPITAL LETTER U WITH GRAVE"), (218, "LATIN CAPITAL LETTER U WITH ACUTE"),
  (219, "LATIN CAPITAL LETTER U WITH CIRCUMFLEX"),
  (220, "LATIN CAPITAL LETTER U WITH DIAERESIS"), (221, "LATIN CAPITAL LETTER Y WITH ACUTE"),
  (222, "LATIN CAPITAL LETTER THORN"), (223, "LATIN SMALL LETTER SHARP S"),
  (224, "LATIN SMALL LETTER A WITH GRAVE"), (225, "LATIN SMALL LETTER A WITH ACUTE"),
  (226, "LATIN SMALL LETTER A WITH CIRCUMFLEX"), (227, "LATIN SMALL LETTER A WITH TILDE"),
  (228, "LATIN SMALL LETTER A WITH DIAERESIS"), (229, "LATIN SMALL LETTER A WITH RING ABOVE"),
  (230, "LATIN SMALL LETTER AE"), (231, "LATIN SMALL LETTER C WITH CEDILLA"),
  (232, "LATIN SMALL LETTER E WITH GRAVE"), (233, "LATIN SMALL LETTER E WITH ACUTE"),
  (234, "LATIN SMALL LETTER E WITH CIRCUMFLEX"), (235, "LATIN SMALL LETTER E WITH DIAERESIS"),
  (236, "LATIN SMALL LETTER I WITH GRAVE"), (237, "LATIN SMALL LETTER I WITH ACUTE"),
  (238, "LATIN SMALL LETTER I WITH CIRCUMFLEX"), (239, "LATIN SMALL LETTER I WITH DIAERESIS"),
  (240, "LATIN SMALL LETTER ETH"), (241, "LATIN SMALL LETTER N WITH TILDE"),
  (242, "LATIN SMALL LETTER O WITH GRAVE"), (243, "LATIN SMALL LETTER O WITH ACUTE"),
  (244, "LATIN SMALL LETTER O WITH CIRCUMFLEX"), (245, "LATIN SMALL LETTER O WITH TILDE"),
  (246, "LATIN SMALL LETTER O WITH DIAERESIS"), (247, "DIVISION SIGN"),
  (248, "LATIN SMALL LETTER O WITH STROKE"), (249, "LATIN SMALL LETTER U WITH GRAVE"),
  (250, "LATIN SMALL LETTER U WITH ACUTE"), (251, "LATIN SMALL LETTER U WITH CIRCUMFLEX"),
  (252, "LATIN SMALL LETTER U WITH DIAERESIS"), (253, "LATIN SMALL LETTER Y WITH ACUTE"),
  (254, "LATIN SMALL LETTER THORN"), (255, "LATIN SMALL LETTER Y WITH DIAERESIS"),
  (913, "GREEK CAPITAL LETTER ALPHA"), (914, "GREEK CAPITAL LETTER BETA"),
  (915, "GREEK CAPITAL LETTER GAMMA"), (916, "GREEK CAPITAL LETTER DELTA"),
  (917, "GREEK CAPITAL LETTER EPSILON"), (918, "GREEK CAPITAL LETTER ZETA"),
  (919, "GREEK CAPITAL LETTER ETA"), (920, "GREEK CAPITAL LETTER THETA"),
  (921, "GREEK CAPITAL LETTER IOTA"), (922, "GREEK CAPITAL LETTER KAPPA"),
  (923, "GREEK CAPITAL LETTER LAMDA"), (924, "GREEK CAPITAL LETTER MU"),
  (925, "GREEK CAPITAL LETTER NU"), (926, "GREEK CAPITAL LETTER XI"),
  (927, "GREEK CAPITAL LETTER OMICRON"), (928, "GREEK CAPITAL LETTER PI"),
  (929, "GREEK CAPITAL LETTER RHO"), (931, "GREEK CAPITAL LETTER SIGMA"),
  (932, "GREEK CAPITAL LETTER TAU"), (933, "GREEK CAPITAL LETTER UPSILON"),
  (934, "GREEK CAPITAL LETTER PHI"), (935, "GREEK CAPITAL LETTER CHI"),
  (936, "GREEK CAPITAL LETTER PSI"), (937, "GREEK CAPITAL LETTER OMEGA"),
  (938, "GREEK CAPITAL LETTER IOTA WITH DIALYTIKA"),
  (939, "GREEK CAPITAL LETTER UPSILON WITH DIALYTIKA"),
  (940, "GREEK SMALL LETTER ALPHA WITH TONOS"), (941, "GREEK SMALL LETTER EPSILON WITH TONOS"),
  (942, "GREEK SMALL LETTER ETA WITH TONOS"), (943, "GREEK SMALL LETTER IOTA WITH TONOS"),
  (944, "GREEK SMALL LETTER UPSILON WITH DIALYTIKA AND TONOS"),
  (945, "GREEK SMALL LETTER ALPHA"), (946, "GREEK SMALL LETTER BETA"),
  (947, "GREEK SMALL LETTER GAMMA"), (948, "GREEK SMALL LETTER DELTA"),
  (949, "GREEK SMALL LETTER EPSILON"), (950, "GREEK SMALL LETTER ZETA"),
  (951, "GREEK SMALL LETTER ETA"), (952, "GREEK SMALL LETTER THETA"),
  (953, "GREEK SMALL LETTER IOTA"), (954, "GREEK SMALL LETTER KAPPA"),
  (955, "GREEK SMALL LETTER LAMDA"), (956, "GREEK SMALL LETTER MU"),
  (957, "GREEK SMALL LETTER NU"), (958, "GREEK SMALL LETTER XI"),
  (959, "GREEK SMALL LETTER OMICRON"), (960, "GREEK SMALL LETTER PI"),
  (961, "GREEK SMALL LETTER RHO"), (962, "GREEK SMALL LETTER FINAL SIGMA"),
  (963, "GREEK SMALL LETTER SIGMA"), (964, "GREEK SMALL LETTER TAU"),
  (965, "GREEK SMALL LETTER UPSILON"), (966, "GREEK SMALL LETTER PHI"),
  (967, "GREEK SMALL LETTER CHI"), (968, "GREEK SMALL LETTER PSI"),
  (969, "GREEK SMALL LETTER OMEGA"), (8192, "EN QUAD"), (8193, "EM QUAD"), (8194, "EN SPACE"),
  (8195, "EM SPACE"), (8196, "THREE-PER-EM SPACE"), (8197, "FOUR-PER-EM SPACE"),
  (8198, "SIX-PER-EM SPACE"), (8199, "FIGURE SPACE"), (8200, "PUNCTUATION SPACE"),
  (8201, "THIN SPACE"), (8202, "HAIR SPACE"), (8203, "ZERO WIDTH SPACE"),
  (8204, "ZERO WIDTH NON-JOINER"), (8205, "ZERO WIDTH JOINER"), (8206, "LEFT-TO-RIGHT MARK"),
  (8207, "RIGHT-TO-LEFT MARK"), (8208, "HYPHEN"), (8209, "NON-BREAKING HYPHEN"),
  (8210, "FIGURE DASH"), (8211, "EN DASH"), (8212, "EM DASH"), (8213, "HORIZONTAL BAR"),
  (8214, "DOUBLE VERTICAL LINE"), (8215, "DOUBLE LOW LINE"),
  (8216, "LEFT SINGLE QUOTATION MARK"), (8217, "RIGHT SINGLE QUOTATION MARK"),
  (8218, "SINGLE LOW-9 QUOTATION MARK"), (8219, "SINGLE HIGH-REVERSED-9 QUOTATION MARK"),
  (8220, "LEFT DOUBLE QUOTATION MARK"), (8221, "RIGHT DOUBLE QUOTATION MARK"),
  (8222, "DOUBLE LOW-9 QUOTATION MARK"), (8223, "DOUBLE HIGH-REVERSED-9 QUOTATION MARK"),
  (8224, "DAGGER"), (8225, "DOUBLE DAGGER"), (8226, "BULLET"), (8227, "TRIANGULAR BULLET"),
  (8228, "ONE DOT LEADER"), (8229, "TWO DOT LEADER"), (8230, "HORIZONTAL ELLIPSIS"),
  (8231, "HYPHENATION POINT"), (8232, "LINE SEPARATOR"), (8233, "PARAGRAPH SEPARATOR"),
  (8234, "LEFT-TO-RIGHT EMBEDDING"), (8235, "RIGHT-TO-LEFT EMBEDDING"),
  (8236, "POP DIRECTIONAL FORMATTING"), (8237, "LEFT-TO-RIGHT OVERRIDE"),
  (8238, "RIGHT-TO-LEFT OVERRIDE"), (8239, "NARROW NO-BREAK SPACE"), (8240, "PER MILLE SIGN"),
  (8241, "PER TEN THOUSAND SIGN"), (8242, "PRIME"), (8243, "DOUBLE PRIME"),
  (8244, "TRIPLE PRIME"), (8245, "REVERSED PRIME"), (8246, "REVERSED DOUBLE PRIME"),
  (8247, "REVERSED TRIPLE PRIME"), (8248, "CARET"),
  (8249, "SINGLE LEFT-POINTING ANGLE QUOTATION MARK"),
  (8250, "SINGLE RIGHT-POINTING ANGLE QUOTATION MARK"), (8251, "REFERENCE MARK"),
  (8252, "DOUBLE EXCLAMATION MARK"), (8253, "INTERROBANG"), (8254, "OVERLINE"),
  (8255, "UNDERTIE"), (8256, "CHARACTER TIE"), (8257, "CARET INSERTION POINT"),
  (8258, "ASTERISM"), (8259, "HYPHEN BULLET"), (8260, "FRACTION SLASH"),
  (8261, "LEFT SQUARE BRACKET WITH QUILL"), (8262, "RIGHT SQUARE BRACKET WITH QUILL"),
  (8263, "DOUBLE QUESTION MARK"), (8264, "QUESTION EXCLAMATION MARK"),
  (8265, "EXCLAMATION QUESTION MARK"), (8266, "TIRONIAN SIGN ET"),
  (8267, "REVERSED PILCROW SIGN"), (8268, "BLACK LEFTWARDS BULLET"),
  (8269, "BLACK RIGHTWARDS BULLET"), (8270, "LOW ASTERISK"), (8271, "REVERSED SEMICOLON"),
  (8272, "CLOSE UP"), (8273, "TWO ASTERISKS ALIGNED VERTICALLY"),
  (8274, "COMMERCIAL MINUS SIGN"), (8275, "SWUNG DASH"), (8276, "INVERTED UNDERTIE"),
  (8277, "FLOWER PUNCTUATION MARK"), (8278, "THREE DOT PUNCTUATION"),
  (8279, "QUADRUPLE PRIME"), (8280, "FOUR DOT PUNCTUATION"), (8281, "FIVE DOT PUNCTUATION"),
  (8282, "TWO DOT PUNCTUATION"), (8283, "FOUR DOT MARK"), (8284, "DOTTED CROSS"),
  (8285, "TRICOLON"), (8286, "VERTICAL FOUR DOTS"), (8287, "MEDIUM MATHEMATICAL SPACE"),
  (8288, "WORD JOINER"), (8289, "FUNCTION APPLICATION"), (8290, "INVISIBLE TIMES"),
  (8291, "INVISIBLE SEPARATOR"), (8292, "INVISIBLE PLUS"), (8294, "LEFT-TO-RIGHT ISOLATE"),
  (8295, "RIGHT-TO-LEFT ISOLATE"), (8296, "FIRST STRONG ISOLATE"),
  (8297, "POP DIRECTIONAL ISOLATE"), (8298, "INHIBIT SYMMETRIC SWAPPING"),
  (8299, "ACTIVATE SYMMETRIC SWAPPING"), (8300, "INHIBIT ARABIC FORM SHAPING"),
  (8301, "ACTIVATE ARABIC FORM SHAPING"), (8302, "NATIONAL DIGIT SHAPES"),
  (8303, "NOMINAL DIGIT SHAPES"), (8352, "EURO-CURRENCY SIGN"), (8353, "COLON SIGN"),
  (8354, "CRUZEIRO SIGN"), (8355, "FRENCH FRANC SIGN"), (8356, "LIRA SIGN"),
  (8357, "MILL SIGN"), (8358, "NAIRA SIGN"), (8359, "PESETA SIGN"), (8360, "RUPEE SIGN"),
  (8361, "WON SIGN"), (8362, "NEW SHEQEL SIGN"), (8363, "DONG SIGN"), (8364, "EURO SIGN"),
  (8365, "KIP SIGN"), (8366, "TUGRIK SIGN"), (8367, "DRACHMA SIGN"),
  (8368, "GERMAN PENNY SIGN"), (8369, "PESO SIGN"), (8370, "GUARANI SIGN"),
  (8371, "AUSTRAL SIGN"), (8372, "HRYVNIA SIGN"), (8373, "CEDI SIGN"),
  (8374, "LIVRE TOURNOIS SIGN"), (8375, "SPESMILO SIGN"), (8376, "TENGE SIGN"),
  (8377, "INDIAN RUPEE SIGN"), (8378, "TURKISH LIRA SIGN"), (8379, "NORDIC MARK SIGN"),
  (8380, "MANAT SIGN"), (8381, "RUBLE SIGN"), (8382, "LARI SIGN"), (8383, "BITCOIN SIGN"),
  (8448, "ACCOUNT OF"), (8449, "ADDRESSED TO THE SUBJECT"), (8450, "DOUBLE-STRUCK CAPITAL C"),
  (8451, "DEGREE CELSIUS"), (8452, "CENTRE LINE SYMBOL"), (8453, "CARE OF"),
  (8454, "CADA UNA"), (8455, "EULER CONSTANT"), (8456, "SCRUPLE"), (8457, "DEGREE FAHRENHEIT"),
  (8458, "SCRIPT SMALL G"), (8459, "SCRIPT CAPITAL H"), (8460, "BLACK-LETTER CAPITAL H"),
  (8461, "DOUBLE-STRUCK CAPITAL H"), (8462, "PLANCK CONSTANT"),
  (8463, "PLANCK CONSTANT OVER TWO PI"), (8464, "SCRIPT CAPITAL I"),
  (8465, "BLACK-LETTER CAPITAL I"), (8466, "SCRIPT CAPITAL L"), (8467, "SCRIPT SMALL L"),
  (8468, "L B BAR SYMBOL"), (8469, "DOUBLE-STRUCK CAPITAL N"), (8470, "NUMERO SIGN"),
  (8471, "SOUND RECORDING COPYRIGHT"), (8472, "SCRIPT CAPITAL P"),
  (8473, "DOUBLE-STRUCK CAPITAL P"), (8474, "DOUBLE-STRUCK CAPITAL Q"),
  (8475, "SCRIPT CAPITAL R"), (8476, "BLACK-LETTER CAPITAL R"),
  (8477, "DOUBLE-STRUCK CAPITAL R"), (8478, "PRESCRIPTION TAKE"), (8479, "RESPONSE"),
  (8480, "SERVICE MARK"), (8481, "TELEPHONE SIGN"), (8482, "TRADE MARK SIGN"),
  (8483, "VERSICLE"), (8484, "DOUBLE-STRUCK CAPITAL Z"), (8485, "OUNCE SIGN"),
  (8486, "OHM SIGN"), (8487, "INVERTED OHM SIGN"), (8488, "BLACK-LETTER CAPITAL Z"),
  (8489, "TURNED GREEK SMALL LETTER IOTA"), (8490, "KELVIN SIGN"), (8491, "ANGSTROM SIGN"),
  (8492, "SCRIPT CAPITAL B"), (8493, "BLACK-LETTER CAPITAL C"), (8494, "ESTIMATED SYMBOL"),
  (8495, "SCRIPT SMALL E"), (8496, "SCRIPT CAPITAL E"), (8497, "SCRIPT CAPITAL F"),
  (8498, "TURNED CAPITAL F"), (8499, "SCRIPT CAPITAL M"), (8500, "SCRIPT SMALL O"),
  (8501, "ALEF SYMBOL"), (8502, "BET SYMBOL"), (8503, "GIMEL SYMBOL"), (8504, "DALET SYMBOL"),
  (8505, "INFORMATION SOURCE"), (8506, "ROTATED CAPITAL Q"), (8507, "FACSIMILE SIGN"),
  (8508, "DOUBLE-STRUCK SMALL PI"), (8509, "DOUBLE-STRUCK SMALL GAMMA"),
  (8510, "DOUBLE-STRUCK CAPITAL GAMMA"), (8511, "DOUBLE-STRUCK CAPITAL PI"),
  (8512, "DOUBLE-STRUCK N-ARY SUMMATION"), (8513, "TURNED SANS-SERIF CAPITAL G"),
  (8514, "TURNED SANS-SERIF CAPITAL L"), (8515, "REVERSED SANS-SERIF CAPITAL L"),
  (8516, "TURNED SANS-SERIF CAPITAL Y"), (8517, "DOUBLE-STRUCK ITALIC CAPITAL D"),
  (8518, "DOUBLE-STRUCK ITALIC SMALL D"), (8519, "DOUBLE-STRUCK ITALIC SMALL E"),
  (8520, "DOUBLE-STRUCK ITALIC SMALL I"), (8521, "DOUBLE-STRUCK ITALIC SMALL J"),
  (8522, "PROPERTY LINE"), (8523, "TURNED AMPERSAND"), (8524, "PER SIGN"),
  (8525, "AKTIESELSKAB"), (8526, "TURNED SMALL F"), (8527, "SYMBOL FOR SAMARITAN SOURCE"),
  (8592, "LEFTWARDS ARROW"), (8593, "UPWARDS ARROW"), (8594, "RIGHTWARDS ARROW"),
  (8595, "DOWNWARDS ARROW"), (8596, "LEFT RIGHT ARROW"), (8597, "UP DOWN ARROW"),
  (8598, "NORTH WEST ARROW"), (8599, "NORTH EAST ARROW"), (8600, "SOUTH EAST ARROW"),
  (8601, "SOUTH WEST ARROW"), (8704, "FOR ALL"), (8705, "COMPLEMENT"),
  (8706, "PARTIAL DIFFERENTIAL"), (8707, "THERE EXISTS"), (8708, "THERE DOES NOT EXIST"),
  (8709, "EMPTY SET"), (8710, "INCREMENT"), (8711, "NABLA"), (8712, "ELEMENT OF"),
  (8713, "NOT AN ELEMENT OF"), (8714, "SMALL ELEMENT OF"), (8715, "CONTAINS AS MEMBER"),
  (8716, "DOES NOT CONTAIN AS MEMBER"), (8717, "SMALL CONTAINS AS MEMBER"),
  (8718, "END OF PROOF"), (8719, "N-ARY PRODUCT"), (8720, "N-ARY COPRODUCT"),
  (8721, "N-ARY SUMMATION"), (8722, "MINUS SIGN"), (8723, "MINUS-OR-PLUS SIGN"),
  (8724, "DOT PLUS"), (8725, "DIVISION SLASH"), (8726, "SET MINUS"),
  (8727, "ASTERISK OPERATOR"), (8728, "RING OPERATOR"), (8729, "BULLET OPERATOR"),
  (8730, "SQUARE ROOT"), (8731, "CUBE ROOT"), (8732, "FOURTH ROOT"), (8733, "PROPORTIONAL TO"),
  (8734, "INFINITY"), (8735, "RIGHT ANGLE"), (8736, "ANGLE"), (8737, "MEASURED ANGLE"),
  (8738, "SPHERICAL ANGLE"), (8739, "DIVIDES"), (8740, "DOES NOT DIVIDE"),
  (8741, "PARALLEL TO"), (8742, "NOT PARALLEL TO"), (8743, "LOGICAL AND"),
  (8744, "LOGICAL OR"), (8745, "INTERSECTION"), (8746, "UNION"), (8747, "INTEGRAL"),
  (8748, "DOUBLE INTEGRAL"), (8749, "TRIPLE INTEGRAL"), (8750, "CONTOUR INTEGRAL"),
  (8751, "SURFACE INTEGRAL"), (8752, "VOLUME INTEGRAL"), (8753, "CLOCKWISE INTEGRAL"),
  (8754, "CLOCKWISE CONTOUR INTEGRAL"), (8755, "ANTICLOCKWISE CONTOUR INTEGRAL"),
  (8756, "THEREFORE"), (8757, "BECAUSE"), (8758, "RATIO"), (8759, "PROPORTION"),
  (8760, "DOT MINUS"), (8761, "EXCESS"), (8762, "GEOMETRIC PROPORTION"), (8763, "HOMOTHETIC"),
  (8764, "TILDE OPERATOR"), (8765, "REVERSED TILDE"), (8766, "INVERTED LAZY S"),
  (8767, "SINE WAVE"), (8768, "WREATH PRODUCT"), (8769, "NOT TILDE"), (8770, "MINUS TILDE"),
  (8771, "ASYMPTOTICALLY EQUAL TO"), (8772, "NOT ASYMPTOTICALLY EQUAL TO"),
  (8773, "APPROXIMATELY EQUAL TO"), (8774, "APPROXIMATELY BUT NOT ACTUALLY EQUAL TO"),
  (8775, "NEITHER APPROXIMATELY NOR ACTUALLY EQUAL TO"), (8776, "ALMOST EQUAL TO"),
  (8777, "NOT ALMOST EQUAL TO"), (8778, "ALMOST EQUAL OR EQUAL TO"), (8779, "TRIPLE TILDE"),
  (8780, "ALL EQUAL TO"), (8781, "EQUIVALENT TO"), (8782, "GEOMETRICALLY EQUIVALENT TO"),
  (8783, "DIFFERENCE BETWEEN"), (8784, "APPROACHES THE LIMIT"),
  (8785, "GEOMETRICALLY EQUAL TO"), (8786, "APPROXIMATELY EQUAL TO OR THE IMAGE OF"),
  (8787, "IMAGE OF OR APPROXIMATELY EQUAL TO"), (8788, "COLON EQUALS"), (8789, "EQUALS COLON"),
  (8790, "RING IN EQUAL TO"), (8791, "RING EQUAL TO"), (8792, "CORRESPONDS TO"),
  (8793, "ESTIMATES"), (8794, "EQUIANGULAR TO"), (8795, "STAR EQUALS"),
  (8796, "DELTA EQUAL TO"), (8797, "EQUAL TO BY DEFINITION"), (8798, "MEASURED BY"),
  (8799, "QUESTIONED EQUAL TO"), (8800, "NOT EQUAL TO"), (8801, "IDENTICAL TO"),
  (8802, "NOT IDENTICAL TO"), (8803, "STRICTLY EQUIVALENT TO"),
  (8804, "LESS-THAN OR EQUAL TO"), (8805, "GREATER-THAN OR EQUAL TO"), (9632, "BLACK SQUARE"),
  (9633, "WHITE SQUARE"), (9634, "WHITE SQUARE WITH ROUNDED CORNERS"),
  (9635, "WHITE SQUARE CONTAINING BLACK SMALL SQUARE"), (9636, "SQUARE WITH HORIZONTAL FILL"),
  (9637, "SQUARE WITH VERTICAL FILL"), (9638, "SQUARE WITH ORTHOGONAL CROSSHATCH FILL"),
  (9639, "SQUARE WITH UPPER LEFT TO LOWER RIGHT FILL"),
  (9640, "SQUARE WITH UPPER RIGHT TO LOWER LEFT FILL"),
  (9641, "SQUARE WITH DIAGONAL CROSSHATCH FILL"), (9642, "BLACK SMALL SQUARE"),
  (9643, "WHITE SMALL SQUARE"), (9644, "BLACK RECTANGLE"), (9645, "WHITE RECTANGLE"),
  (9646, "BLACK VERTICAL RECTANGLE"), (9647, "WHITE VERTICAL RECTANGLE"),
  (9648, "BLACK PARALLELOGRAM"), (9649, "WHITE PARALLELOGRAM"),
  (9650, "BLACK UP-POINTING TRIANGLE"), (9651, "WHITE UP-POINTING TRIANGLE"),
  (9652, "BLACK UP-POINTING SMALL TRIANGLE"), (9653, "WHITE UP-POINTING SMALL TRIANGLE"),
  (9654, "BLACK RIGHT-POINTING TRIANGLE"), (9655, "WHITE RIGHT-POINTING TRIANGLE"),
  (9656, "BLACK RIGHT-POINTING SMALL TRIANGLE"), (9657, "WHITE RIGHT-POINTING SMALL TRIANGLE"),
  (9658, "BLACK RIGHT-POINTING POINTER"), (9659, "WHITE RIGHT-POINTING POINTER"),
  (9660, "BLACK DOWN-POINTING TRIANGLE"), (9661, "WHITE DOWN-POINTING TRIANGLE"),
  (9662, "BLACK DOWN-POINTING SMALL TRIANGLE"), (9663, "WHITE DOWN-POINTING SMALL TRIANGLE"),
  (9664, "BLACK LEFT-POINTING TRIANGLE"), (9665, "WHITE LEFT-POINTING TRIANGLE"),
  (9666, "BLACK LEFT-POINTING SMALL TRIANGLE"), (9667, "WHITE LEFT-POINTING SMALL TRIANGLE"),
  (9668, "BLACK LEFT-POINTING POINTER"), (9669, "WHITE LEFT-POINTING POINTER"),
  (9670, "BLACK DIAMOND"), (9671, "WHITE DIAMOND"),
  (9672, "WHITE DIAMOND CONTAINING BLACK SMALL DIAMOND"), (9673, "FISHEYE"), (9674, "LOZENGE"),
  (9675, "WHITE CIRCLE"), (9676, "DOTTED CIRCLE"), (9677, "CIRCLE WITH VERTICAL FILL"),
  (9678, "BULLSEYE"), (9679, "BLACK CIRCLE"), (9728, "BLACK SUN WITH RAYS"), (9729, "CLOUD"),
  (9730, "UMBRELLA"), (9731, "SNOWMAN"), (9732, "COMET"), (9733, "BLACK STAR"),
  (9734, "WHITE STAR"), (10003, "CHECK MARK"), (10004, "HEAVY CHECK MARK"),
  (10005, "MULTIPLICATION X"), (10006, "HEAVY MULTIPLICATION X"), (10007, "BALLOT X"),
  (10008, "HEAVY BALLOT X"), (64256, "LATIN SMALL LIGATURE FF"),
  (64257, "LATIN SMALL LIGATURE FI"), (64258, "LATIN SMALL LIGATURE FL"),
  (64259, "LATIN SMALL LIGATURE FFI"), (64260, "LATIN SMALL LIGATURE FFL"),
  (64261, "LATIN SMALL LIGATURE LONG S T"), (64262, "LATIN SMALL LIGATURE ST"),
  (128512, "GRINNING FACE"), (128513, "GRINNING FACE WITH SMILING EYES"),
  (128514, "FACE WITH TEARS OF JOY"), (128515, "SMILING FACE WITH OPEN MOUTH"),
  (128516, "SMILING FACE WITH OPEN MOUTH AND SMILING EYES"),
  (128517, "SMILING FACE WITH OPEN MOUTH AND COLD SWEAT"),
  (128518, "SMILING FACE WITH OPEN MOUTH AND TIGHTLY-CLOSED EYES"),
  (128519, "SMILING FACE WITH HALO"), (128520, "SMILING FACE WITH HORNS"),
  (128521, "WINKING FACE"), (128522, "SMILING FACE WITH SMILING EYES"),
  (128523, "FACE SAVOURING DELICIOUS FOOD"), (128524, "RELIEVED FACE"),
  (128525, "SMILING FACE WITH HEART-SHAPED EYES"), (128526, "SMILING FACE WITH SUNGLASSES"),
  (128527, "SMIRKING FACE"), (128528, "NEUTRAL FACE"), (128529, "EXPRESSIONLESS FACE"),
  (128530, "UNAMUSED FACE"), (128531, "FACE WITH COLD SWEAT"), (128532, "PENSIVE FACE"),
  (128533, "CONFUSED FACE"), (128534, "CONFOUNDED FACE"), (128535, "KISSING FACE"),
  (128536, "FACE THROWING A KISS"), (128537, "KISSING FACE WITH SMILING EYES"),
  (128538, "KISSING FACE WITH CLOSED EYES"), (128539, "FACE WITH STUCK-OUT TONGUE"),
  (128540, "FACE WITH STUCK-OUT TONGUE AND WINKING EYE"),
  (128541, "FACE WITH STUCK-OUT TONGUE AND TIGHTLY-CLOSED EYES"),
  (128542, "DISAPPOINTED FACE"), (128543, "WORRIED FACE"), (128544, "ANGRY FACE"),
  (128545, "POUTING FACE"), (128546, "CRYING FACE"), (128547, "PERSEVERING FACE"),
  (128548, "FACE WITH LOOK OF TRIUMPH"), (128549, "DISAPPOINTED BUT RELIEVED FACE"),
  (128550, "FROWNING FACE WITH OPEN MOUTH"), (128551, "ANGUISHED FACE"),
  (128552, "FEARFUL FACE"), (128553, "WEARY FACE"), (128554, "SLEEPY FACE"),
  (128555, "TIRED FACE"), (128556, "GRIMACING FACE"), (128557, "LOUDLY CRYING FACE"),
  (128558, "FACE WITH OPEN MOUTH"), (128559, "HUSHED FACE"),
  (128560, "FACE WITH OPEN MOUTH AND COLD SWEAT"), (128561, "FACE SCREAMING IN FEAR"),
  (128562, "ASTONISHED FACE"), (128563, "FLUSHED FACE"), (128564, "SLEEPING FACE"),
  (128565, "DIZZY FACE"), (128566, "FACE WITHOUT MOUTH"), (128567, "FACE WITH MEDICAL MASK"),
  (128568, "GRINNING CAT FACE WITH SMILING EYES"), (128569, "CAT FACE WITH TEARS OF JOY"),
  (128570, "SMILING CAT FACE WITH OPEN MOUTH"),
  (128571, "SMILING CAT FACE WITH HEART-SHAPED EYES"), (128572, "CAT FACE WITH WRY SMILE"),
  (128573, "KISSING CAT FACE WITH CLOSED EYES"), (128574, "POUTING CAT FACE"),
  (128575, "CRYING CAT FACE"), (128576, "WEARY CAT FACE"), (128577, "SLIGHTLY FROWNING FACE"),
  (128578, "SLIGHTLY SMILING FACE"), (128579, "UPSIDE-DOWN FACE"),
  (128580, "FACE WITH ROLLING EYES"), (128581, "FACE WITH NO GOOD GESTURE"),
  (128582, "FACE WITH OK GESTURE"), (128583, "PERSON BOWING DEEPLY"),
  (128584, "SEE-NO-EVIL MONKEY"), (128585, "HEAR-NO-EVIL MONKEY"),
  (128586, "SPEAK-NO-EVIL MONKEY"), (128587, "HAPPY PERSON RAISING ONE HAND"),
  (128588, "PERSON RAISING BOTH HANDS IN CELEBRATION"), (128589, "PERSON FROWNING"),
  (128590, "PERSON WITH POUTING FACE"), (128591, "PERSON WITH FOLDED HANDS"),
  (65279, "ZERO WIDTH NO-BREAK SPACE"), (65532, "OBJECT REPLACEMENT CHARACTER"),
  (65533, "REPLACEMENT CHARACTER"), (7838, "LATIN CAPITAL LETTER SHARP S"),
  (6158, "MONGOLIAN VOWEL SEPARATOR"), (0, "NULL"), (1, "START OF HEADING"),
  (2, "START OF TEXT"), (3, "END OF TEXT"), (4, "END OF TRANSMISSION"), (5, "ENQUIRY"),
  (6, "ACKNOWLEDGE"), (7, "ALERT"), (8, "BACKSPACE"), (9, "CHARACTER TABULATION"),
  (9, "HORIZONTAL TABULATION"), (10, "LINE FEED"), (10, "NEW LINE"), (10, "END OF LINE"),
  (11, "LINE TABULATION"), (11, "VERTICAL TABULATION"), (12, "FORM FEED"),
  (13, "CARRIAGE RETURN"), (14, "SHIFT OUT"), (15, "SHIFT IN"), (27, "ESCAPE"),
  (127, "DELETE"), (133, "NEXT LINE"), (0, "NUL"), (9, "TAB"), (10, "LF"), (13, "CR"),
  (27, "ESC"), (127, "DEL"), (160, "NBSP"), (173, "SHY"), (8203, "ZWSP"), (8204, "ZWNJ"),
  (8205, "ZWJ"), (8206, "LRM"), (8207, "RLM"), (65279, "BOM"), (65279, "BYTE ORDER MARK"),
  (32, "SP"), (11, "VT"), (12, "FF"), (7, "BEL"), (8, "BS"), (4, "EOT"), (133, "NEL"),
  (10, "NL"), (10, "EOL"), (26, "SUBSTITUTE"), (24, "CANCEL")]

/-- The initial consonants of Hangul syllables, in order. -/
def initials : List Text := ["G", "GG", "N", "D", "DD", "R", "M", "B", "BB", "S", "SS", "", "J", "JJ",
  "C", "K", "T", "P", "H"]

/-- The vowels of Hangul syllables, in order. -/
def vowels : List Text := ["A", "AE", "YA", "YAE", "EO", "E", "YEO", "YE", "O", "WA", "WAE", "OE", "YO",
  "U", "WEO", "WE", "WI", "YU", "EU", "YI", "I"]

/-- The final consonants of Hangul syllables, in order. -/
def finals : List Text := ["", "G", "GG", "GS", "N", "NJ", "NH", "D", "L", "LG", "LM", "LB", "LS", "LT",
  "LP", "LH", "M", "B", "BS", "S", "SS", "NG", "J", "C", "K", "T", "P", "H"]

/-- The Hangul syllable with this reading. -/
def syllable? (reading : Text) : Option CodePoint :=
  let readings : List (Text × CodePoint) :=
    initials.zipIdx.flatMap fun (first, i) => vowels.zipIdx.flatMap fun (second, v) =>
      finals.zipIdx.map fun (third, f) => (first ++ second ++ third, 0xAC00 + (i * 21 + v) * 28 + f)
  readings.lookup reading

/-- Whether the code point is an ideograph that is named by its number. -/
def isNumberedIdeograph (c : CodePoint) : Bool :=
  (0x3400 ≤ c && c ≤ 0x4DBF) || (0x4E00 ≤ c && c ≤ 0x9FFF) || (0x20000 ≤ c && c ≤ 0x2A6DF) ||
    (0x2A700 ≤ c && c ≤ 0x2B738) || (0x2B740 ≤ c && c ≤ 0x2B81D) || (0x2B820 ≤ c && c ≤ 0x2CEA1) ||
    (0x2CEB0 ≤ c && c ≤ 0x2EBE0) || (0x30000 ≤ c && c ≤ 0x3134A)

/-- The ideograph whose number in hexadecimal digits this is. -/
def ideograph? (digits : Text) : Option CodePoint :=
  if digits.length < 4 || 5 < digits.length || !digits.all (fun c => (CodePoint.hexValue? c).isSome) then none
  else
    let c : CodePoint := digits.foldl (fun n c => n * 16 + (CodePoint.hexValue? c).getD 0) 0
    if isNumberedIdeograph c then some c else none

/-- The code point with this name. -/
def find? (name : Text) : Option CodePoint :=
  let name := name.upper
  match Text.dropLead? "CJK UNIFIED IDEOGRAPH-" name, Text.dropLead? "HANGUL SYLLABLE " name with
  | some digits, _ => ideograph? digits
  | _, some reading => syllable? reading
  | none, none => (table.find? fun (_, n) => Text.ofString n == name).map (·.1)

end NoteAccess.CharacterName
